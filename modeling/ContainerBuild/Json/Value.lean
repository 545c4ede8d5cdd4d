import ContainerBuild.Json.Members
import ContainerBuild.Json.Number

namespace ContainerBuild

/-!
# JSON values

The generic value of a JSON text.  An object is the list of its members in the order of the
text.  Nothing in the type keeps a name from occurring twice; `Json.WellFormed` says that none
does, at any depth, and that integers fit 64 bits, which is what reading guarantees.

Two notions of equality matter.  Equality proper is identity of everything, order included.
`Json.sameValue` is equality of what is meant: the order of members does not count, and neither
does the sign of a zero.
-/

/-- A JSON value. -/
inductive Json where
  | null
  | bool (value : Bool)
  | number (value : Json.Number)
  | string (value : String)
  | array (items : List Json)
  | object (members : List (String × Json))
deriving Inhabited

namespace Json

/-! ## Equality of values -/

mutual

/-- Identity of two values. -/
def beq : Json → Json → Bool
  | .null, .null => true
  | .bool a, .bool b => a == b
  | .number a, .number b => a == b
  | .string a, .string b => a == b
  | .array a, .array b => beqItems a b
  | .object a, .object b => beqMembers a b
  | _, _ => false

/-- Identity of two lists of values. -/
def beqItems : List Json → List Json → Bool
  | [], [] => true
  | a :: as, b :: bs => a.beq b && beqItems as bs
  | _, _ => false

/-- Identity of two lists of members. -/
def beqMembers : List (String × Json) → List (String × Json) → Bool
  | [], [] => true
  | (name, a) :: as, (name', b) :: bs => name == name' && a.beq b && beqMembers as bs
  | _, _ => false

end

mutual

theorem eq_of_beq : ∀ {a b : Json}, a.beq b = true → a = b
  | .null, b, same => by cases b <;> simp_all [beq]
  | .bool _, b, same => by cases b <;> simp_all [beq]
  | .number _, b, same => by cases b <;> simp_all [beq]
  | .string _, b, same => by cases b <;> simp_all [beq]
  | .array items, b, same => by
      cases b <;> simp only [beq, Bool.false_eq_true] at same
      rw [eq_of_beqItems same]
  | .object members, b, same => by
      cases b <;> simp only [beq, Bool.false_eq_true] at same
      rw [eq_of_beqMembers same]

theorem eq_of_beqItems : ∀ {as bs : List Json}, beqItems as bs = true → as = bs
  | [], bs, same => by cases bs <;> simp_all [beqItems]
  | a :: as, bs, same => by
      cases bs with
      | nil => simp [beqItems] at same
      | cons b bs =>
          simp only [beqItems, Bool.and_eq_true] at same
          rw [eq_of_beq same.1, eq_of_beqItems same.2]

theorem eq_of_beqMembers : ∀ {as bs : List (String × Json)}, beqMembers as bs = true → as = bs
  | [], bs, same => by cases bs <;> simp_all [beqMembers]
  | (name, a) :: as, bs, same => by
      cases bs with
      | nil => simp [beqMembers] at same
      | cons head bs =>
          obtain ⟨name', b⟩ := head
          simp only [beqMembers, Bool.and_eq_true, beq_iff_eq] at same
          rw [same.1.1, eq_of_beq same.1.2, eq_of_beqMembers same.2]

end

mutual

theorem beq_self : ∀ a : Json, a.beq a = true
  | .null => rfl
  | .bool _ => by simp [beq]
  | .number _ => by simp [beq]
  | .string _ => by simp [beq]
  | .array items => by simp [beq, beqItems_self items]
  | .object members => by simp [beq, beqMembers_self members]

theorem beqItems_self : ∀ as : List Json, beqItems as as = true
  | [] => rfl
  | a :: as => by simp [beqItems, beq_self a, beqItems_self as]

theorem beqMembers_self : ∀ as : List (String × Json), beqMembers as as = true
  | [] => rfl
  | (_, a) :: as => by simp [beqMembers, beq_self a, beqMembers_self as]

end

instance : DecidableEq Json := fun a b =>
  decidable_of_iff (a.beq b = true) ⟨eq_of_beq, fun equal => equal ▸ beq_self a⟩

mutual

/-- Equality of meaning: members are compared by name, whatever their order. -/
def sameValue : Json → Json → Bool
  | .null, .null => true
  | .bool a, .bool b => a == b
  | .number a, .number b => a.sameValue b
  | .string a, .string b => a == b
  | .array a, .array b => sameItems a b
  | .object a, .object b => a.length == b.length && sameMembers a b
  | _, _ => false

/-- Equality of meaning, item by item. -/
def sameItems : List Json → List Json → Bool
  | [], [] => true
  | a :: as, b :: bs => a.sameValue b && sameItems as bs
  | _, _ => false

/-- Whether every member has a member of the same name and meaning among others. -/
def sameMembers : List (String × Json) → List (String × Json) → Bool
  | [], _ => true
  | (name, value) :: rest, others =>
      (match others.lookup name with
        | some other => value.sameValue other
        | none => false) && sameMembers rest others

end

/-! ## Well-formed values -/

mutual

/-- No object names a member twice, and integers fit 64 bits. -/
def WellFormed : Json → Prop
  | .number (.integer value) => Number.IsInteger64 value
  | .array items => WellFormedItems items
  | .object members => (members.map Prod.fst).Nodup ∧ WellFormedMembers members
  | _ => True

/-- Every item is well formed. -/
def WellFormedItems : List Json → Prop
  | [] => True
  | item :: rest => item.WellFormed ∧ WellFormedItems rest

/-- The value of every member is well formed. -/
def WellFormedMembers : List (String × Json) → Prop
  | [] => True
  | (_, value) :: rest => value.WellFormed ∧ WellFormedMembers rest

end

mutual

/-- How many arrays and objects lie around the innermost part, at most. -/
def depth : Json → Nat
  | .array items => depthOfItems items + 1
  | .object members => depthOfMembers members + 1
  | _ => 0

/-- The greatest depth among items. -/
def depthOfItems : List Json → Nat
  | [] => 0
  | item :: rest => max item.depth (depthOfItems rest)

/-- The greatest depth among the values of members. -/
def depthOfMembers : List (String × Json) → Nat
  | [] => 0
  | (_, value) :: rest => max value.depth (depthOfMembers rest)

end

/-! ## Sorted members -/

/-- Put a member before the first one whose name is not less. -/
def placeMember (member : String × Json) : List (String × Json) → List (String × Json)
  | [] => [member]
  | other :: rest =>
      if other.1 < member.1 then other :: placeMember member rest else member :: other :: rest

mutual

/-- The same value with the members of every object sorted by name. -/
def sortMembers : Json → Json
  | .array items => .array (sortItems items)
  | .object members => .object (sortedMembers members)
  | value => value

/-- Sort within every item. -/
def sortItems : List Json → List Json
  | [] => []
  | item :: rest => item.sortMembers :: sortItems rest

/-- Sort members by name, and within each. -/
def sortedMembers : List (String × Json) → List (String × Json)
  | [] => []
  | (name, value) :: rest => placeMember (name, value.sortMembers) (sortedMembers rest)

end

/-! ## Views -/

/-- The member of an object under a name. -/
def member? (value : Json) (name : String) : Option Json :=
  match value with
  | .object members => members.lookup name
  | _ => none

/-- The item of an array at an index. -/
def item? (value : Json) (index : Nat) : Option Json :=
  match value with
  | .array items => items[index]?
  | _ => none

/-- Whether a value is null. -/
def isNull : Json → Bool
  | .null => true
  | _ => false

/-- Whether a value says something: not null, `false`, zero, or empty. -/
def isTruthy : Json → Bool
  | .null => false
  | .bool value => value
  | .number value => !value.isZero
  | .string value => value != ""
  | .array items => !items.isEmpty
  | .object members => !members.isEmpty

end Json
end ContainerBuild
