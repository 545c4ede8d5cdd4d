import ContainerBuild.Json.Pointer
import ContainerBuild.Proofs.Json.Numeral
import ContainerBuild.Proofs.Json.Reordering
import Mathlib.Data.List.Induction

namespace ContainerBuild
namespace Json

/-!
# Values place by place

The tokens of a pointer lead to at most one part of a value (`at?`), and `nodeAt?` says what is
there apart from what is further inside.  The order of members does not show in that, and
nothing else is lost: values that agree at every place are the same up to that order
(`reorders_of_nodeAt?_eq`).  A change of a value can thus be described by what it does to each
place.
-/

/-! ## Indices -/

theorem eq_digitChar_of_isDigit {c : Char} (digit : c.isDigit = true) :
    c.toNat - 48 < 10 ∧ c = Nat.digitChar (c.toNat - 48) := by
  have bounds : 48 ≤ c.toNat ∧ c.toNat ≤ 57 := by
    simpa [Char.isDigit, UInt32.le_iff_toNat_le] using digit
  have table : ∀ n < 58, 48 ≤ n → Char.ofNat n = Nat.digitChar (n - 48) := by decide
  refine ⟨by omega, ?_⟩
  rw [← table c.toNat (by omega) bounds.1, Char.ofNat_toNat]

/-- Digits without a leading zero are the digits of the number they stand for. -/
theorem toDigits_ofDigitChars {run : List Char} (digital : ∀ c ∈ run, c.isDigit = true)
    (nonempty : run ≠ []) (noZero : run.head? ≠ some '0') :
    Nat.toDigits 10 (Nat.ofDigitChars 10 run 0) = run := by
  induction run using List.reverseRecOn with
  | nil => exact absurd rfl nonempty
  | append_singleton front c inductionHypothesis =>
      have digit := eq_digitChar_of_isDigit (digital c (by simp))
      have last : Nat.toDigits 10 (c.toNat - 48) = [c] := by
        rw [Nat.toDigits_of_lt_base digit.1, ← digit.2]
      rw [Nat.ofDigitChars_append, Nat.ofDigitChars_cons, Nat.ofDigitChars_nil]
      by_cases empty : front = []
      · rw [empty]
        simpa [Nat.ofDigitChars] using last
      · rw [List.head?_append_of_ne_nil _ empty] at noZero
        have before := inductionHypothesis (fun c here => digital c (by simp [here])) empty noZero
        have positive : 0 < Nat.ofDigitChars 10 front 0 := by
          refine Nat.pos_of_ne_zero fun zero => noZero ?_
          rw [← before, zero]
          decide
        have joined := Nat.toDigits_append_toDigits (by decide) positive digit.1
        rw [before, last] at joined
        exact joined.symm

namespace Pointer

/-- An index has one token. -/
theorem eq_toString_of_index? {token : String} {index : Nat}
    (named : index? token = some index) : token = toString index := by
  rw [Nat.toString_eq_ofList_toDigits, ← String.toList_inj, String.toList_ofList]
  rw [index?] at named
  split at named
  next => cases named
  next zero =>
    rw [← Option.some.inj named, zero]
    decide
  next first rest _ whole =>
    rw [whole]
    split at named
    · cases named
    split at named
    next notZero digital =>
      rw [← Option.some.inj named, toDigits_ofDigitChars]
      · simpa using digital
      · exact List.cons_ne_nil first rest
      · exact fun same => notZero (Option.some.inj same)
    next => cases named

/-- The token of an index names that index. -/
theorem index?_toString (index : Nat) : index? (toString index) = some index := by
  have digital : ∀ c ∈ Nat.toDigits 10 index, c.isDigit = true :=
    fun c here => Nat.isDigit_of_mem_toDigits (by decide) (by decide) here
  have meaning : Nat.ofDigitChars 10 (Nat.toDigits 10 index) 0 = index :=
    Nat.ofDigitChars_ten_toDigits
  rw [index?, Nat.toString_eq_ofList_toDigits, String.toList_ofList]
  split
  next none => exact absurd none Nat.toDigits_ne_nil
  next zero =>
    rw [zero] at meaning
    rw [← meaning]
    rfl
  next first rest notZero whole =>
    rw [whole] at digital meaning
    have leading : first ≠ '0' := by
      intro same
      cases index with
      | zero =>
          rw [Nat.toDigits_zero] at whole
          exact notZero same (List.cons.inj whole).2.symm
      | succ index =>
          refine Numeral.head?_decimalDigits_ne (Nat.succ_pos index) ?_
          rw [decimalDigits, whole, same]
          rfl
    rw [if_neg leading, if_pos (by simpa using digital), meaning]

end Pointer

/-! ## Places -/

/-- The part directly inside a value that a token leads to. -/
def child? : Json → String → Option Json
  | .object members, token => members.lookup token
  | .array items, token => (Pointer.index? token).bind fun index => items[index]?
  | _, _ => none

/-- The part of a value that tokens lead to. -/
def at? : List String → Json → Option Json
  | [], value => some value
  | token :: rest, value => (value.child? token).bind (at? rest)

/-- What a value is, apart from its parts. -/
inductive Node where
  | null
  | bool (value : Bool)
  | number (value : Number)
  | string (value : String)
  | array (length : Nat)
  | object
deriving DecidableEq

/-- A value without its parts. -/
def node : Json → Node
  | .null => .null
  | .bool value => .bool value
  | .number value => .number value
  | .string value => .string value
  | .array items => .array items.length
  | .object _ => .object

/-- What a value is at a place, if the place is there. -/
def nodeAt? (path : List String) (value : Json) : Option Node := (value.at? path).map node

theorem nodeAt?_nil (value : Json) : value.nodeAt? [] = some value.node := rfl

theorem nodeAt?_cons (token : String) (path : List String) (value : Json) :
    value.nodeAt? (token :: path) = (value.child? token).bind (nodeAt? path) := by
  rw [nodeAt?, at?, Option.map_bind]
  rfl

theorem child?_item (items : List Json) (index : Nat) :
    (Json.array items).child? (toString index) = items[index]? := by
  rw [child?, Pointer.index?_toString]
  rfl

theorem nodeAt?_item (items : List Json) (index : Nat) (path : List String) :
    (Json.array items).nodeAt? (toString index :: path) = items[index]?.bind (nodeAt? path) := by
  rw [nodeAt?_cons, child?_item]

theorem eq_null_of_node {value : Json} (same : value.node = .null) : value = .null := by
  cases value <;> first | rfl | cases same

theorem eq_object_of_node {value : Json} (same : value.node = .object) :
    ∃ members, value = .object members := by
  cases value with
  | object members => exact ⟨members, rfl⟩
  | _ => cases same

theorem eq_array_of_node {value : Json} {length : Nat} (same : value.node = .array length) :
    ∃ items, value = .array items ∧ items.length = length := by
  cases value with
  | array items => exact ⟨items, rfl, by simpa [node] using same⟩
  | _ => cases same

mutual

/-- Values that agree at every place are the same up to the order of members. -/
theorem reorders_of_nodeAt?_eq : ∀ {value other : Json}, other.WellFormed → value.WellFormed →
    (∀ path, value.nodeAt? path = other.nodeAt? path) → Reorders value other
  | .null, other, _, _, same => by
      rw [eq_null_of_node (Option.some.inj (same [])).symm]
      exact .same .null
  | .bool value, other, _, _, same => by
      have root := Option.some.inj (same [])
      cases other <;> simp only [node, Node.bool.injEq, reduceCtorEq] at root
      rw [root]
      exact .same _
  | .number value, other, _, _, same => by
      have root := Option.some.inj (same [])
      cases other <;> simp only [node, Node.number.injEq, reduceCtorEq] at root
      rw [root]
      exact .same _
  | .string value, other, _, _, same => by
      have root := Option.some.inj (same [])
      cases other <;> simp only [node, Node.string.injEq, reduceCtorEq] at root
      rw [root]
      exact .same _
  | .array items, other, otherWellFormed, wellFormed, same => by
      rcases eq_array_of_node (Option.some.inj (same [])).symm with ⟨others, rfl, sameLength⟩
      refine .array (reordersItems_of_nodeAt?_eq otherWellFormed wellFormed sameLength.symm ?_)
      intro index path
      have place := same (toString index :: path)
      rwa [nodeAt?_item, nodeAt?_item] at place
  | .object members, other, otherWellFormed, wellFormed, same => by
      rcases eq_object_of_node (Option.some.inj (same [])).symm with ⟨others, rfl⟩
      have sameLookup : ∀ name path, (members.lookup name).bind (nodeAt? path) =
          (others.lookup name).bind (nodeAt? path) := by
        intro name path
        have place := same (name :: path)
        rwa [nodeAt?_cons, nodeAt?_cons] at place
      have eachPlace : ∀ name value, (name, value) ∈ members → ∀ path,
          value.nodeAt? path = (others.lookup name).bind (nodeAt? path) := by
        intro name value here path
        rw [← sameLookup, (Members.lookup_eq_some_iff_mem wellFormed.1).2 here, Option.bind_some]
      rcases reordersMembers_of_nodeAt?_eq otherWellFormed.2 wellFormed.2 eachPlace with
        ⟨shuffled, each, inOthers⟩
      refine .object each ?_
      refine Members.perm_of_mem_of_mem_names ?_ otherWellFormed.1 inOthers fun name named => ?_
      · rw [Members.names, each.names]
        exact wellFormed.1
      · rw [Members.names, each.names]
        refine Decidable.byContradiction fun missing => ?_
        rcases List.mem_map.1 named with ⟨⟨name, value⟩, here, rfl⟩
        have place := sameLookup name []
        rw [(Members.lookup_eq_some_iff_mem otherWellFormed.1).2 here,
          Members.lookup_eq_none_iff_notMem.2 missing] at place
        cases place

theorem reordersItems_of_nodeAt?_eq : ∀ {items others : List Json}, WellFormedItems others →
    WellFormedItems items → items.length = others.length →
    (∀ (index : Nat) path,
      items[index]?.bind (nodeAt? path) = others[index]?.bind (nodeAt? path)) →
    ReordersItems items others
  | [], [], _, _, _, _ => .nil
  | item :: items, other :: others, otherWellFormed, wellFormed, sameLength, same => by
      refine .cons (reorders_of_nodeAt?_eq otherWellFormed.1 wellFormed.1 fun path => same 0 path)
        (reordersItems_of_nodeAt?_eq otherWellFormed.2 wellFormed.2
          (Nat.succ.inj sameLength) fun index path => ?_)
      have place := same (index + 1) path
      rwa [List.getElem?_cons_succ, List.getElem?_cons_succ] at place

/-- Every member has a partner of its name that it agrees with. -/
theorem reordersMembers_of_nodeAt?_eq : ∀ {members others : List (String × Json)},
    WellFormedMembers others → WellFormedMembers members →
    (∀ name value, (name, value) ∈ members → ∀ path,
      value.nodeAt? path = (others.lookup name).bind (nodeAt? path)) →
    ∃ shuffled, ReordersMembers members shuffled ∧ ∀ member ∈ shuffled, member ∈ others
  | [], _, _, _, _ => ⟨[], .nil, fun _ here => absurd here List.not_mem_nil⟩
  | (name, value) :: rest, others, otherWellFormed, wellFormed, same => by
      rcases reordersMembers_of_nodeAt?_eq otherWellFormed wellFormed.2 fun name value here =>
        same name value (List.mem_cons_of_mem _ here) with ⟨shuffled, each, inOthers⟩
      have head := same name value List.mem_cons_self
      cases found : others.lookup name with
      | none =>
          have root := head []
          rw [found] at root
          cases root
      | some other =>
          have here := Members.mem_of_lookup_eq_some found
          refine ⟨(name, other) :: shuffled, .cons name (reorders_of_nodeAt?_eq
            (wellFormedMembers_iff.1 otherWellFormed _ here) wellFormed.1 fun path => ?_) each,
            List.forall_mem_cons.2 ⟨here, inOthers⟩⟩
          rw [head path, found]
          rfl

end

end Json
end ContainerBuild
