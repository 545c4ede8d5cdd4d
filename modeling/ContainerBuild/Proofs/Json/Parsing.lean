import ContainerBuild.Json.Fault
import ContainerBuild.Proofs.Json.Members
import ContainerBuild.Proofs.Json.Reordering

namespace ContainerBuild
namespace Json

/-!
# What parsing guarantees

A text that is parsed at all gives a well-formed value of bounded depth (`within_of_parse`).
Names are distinct because a repeated name keeps its first place, and integers fit because a
numeral beyond 64 bits is no integer.
-/

/-! ## Numbers of a text -/

theorem wellFormed_of_float? {numeral : Numeral} {value : Number}
    (meaning : numeral.float? = some value) : (Json.number value).WellFormed := by
  rw [Numeral.float?, Option.map_eq_some_iff] at meaning
  rcases meaning with ⟨float, -, rfl⟩
  trivial

theorem wellFormed_of_value? {numeral : Numeral} {value : Number}
    (meaning : numeral.value? = some value) : (Json.number value).WellFormed := by
  simp only [Numeral.value?] at meaning
  split at meaning
  · exact wellFormed_of_float? meaning
  split at meaning
  · split at meaning
    next bounds =>
      rw [← Option.some.inj meaning]
      exact ⟨by omega, by omega⟩
    next => exact wellFormed_of_float? meaning
  · split at meaning
    next bound =>
      rw [← Option.some.inj meaning]
      exact ⟨by omega, by omega⟩
    next => exact wellFormed_of_float? meaning

namespace Tree

mutual

/-- Every number of a tree, at any depth, is well formed. -/
def Fits : Tree → Prop
  | .number (some value) => (Json.number value).WellFormed
  | .array items _ => FitsItems items
  | .object members _ => FitsMembers members
  | _ => True

/-- Every item fits. -/
def FitsItems : List Tree → Prop
  | [] => True
  | item :: rest => item.Fits ∧ FitsItems rest

/-- The value of every member fits. -/
def FitsMembers : List (Option String × Tree) → Prop
  | [] => True
  | (_, value) :: rest => value.Fits ∧ FitsMembers rest

end

theorem fits_scanScalar (text : List Char) : (scanScalar text).1.Fits := by
  unfold scanScalar
  split
  · trivial
  · trivial
  · trivial
  · split
    · trivial
    · trivial
  · split
    next numeral rest read =>
      cases meaning : numeral.value? with
      | none => trivial
      | some value => exact wellFormed_of_value? meaning
    next => trivial

/-- What is taken off a text fits, for whatever fuel. -/
theorem fits_scan (fuel : Nat) : (∀ text, (scanValue fuel text).1.Fits) ∧
    (∀ text, FitsItems (scanItems fuel text).1) ∧
    ∀ text, FitsMembers (scanMembers fuel text).1 := by
  induction fuel with
  | zero =>
      refine ⟨fun text => ?_, fun text => ?_, fun text => ?_⟩
      · rw [scanValue]; trivial
      · rw [scanItems]; trivial
      · rw [scanMembers]; trivial
  | succ fuel inductionHypothesis =>
      rcases inductionHypothesis with ⟨values, items, members⟩
      refine ⟨fun text => ?_, fun text => ?_, fun text => ?_⟩
      · rw [scanValue]
        split
        · split
          · trivial
          · exact items _
        · split
          · trivial
          · exact members _
        · exact fits_scanScalar _
      · have value := values text
        rw [scanItems]
        split
        next item read =>
          rw [read] at value
          exact ⟨value, trivial⟩
        next item rest read =>
          rw [read] at value
          split
          · exact ⟨value, items _⟩
          · exact ⟨value, trivial⟩
          · exact ⟨value, trivial⟩
      · rw [scanMembers]
        split
        · split
          · trivial
          · dsimp only
            split
            next afterColon _ =>
              have value := values afterColon
              split
              next read =>
                rw [read] at value
                exact ⟨value, trivial⟩
              next read =>
                rw [read] at value
                split
                · exact ⟨value, members _⟩
                · exact ⟨value, trivial⟩
                · exact ⟨value, trivial⟩
            · exact ⟨trivial, trivial⟩
        · trivial

end Tree

/-! ## From trees to values -/

theorem mem_put {α : Type} {name : String} {value : α} {members : Members α}
    {member : String × α} (here : member ∈ members.put name value) :
    member = (name, value) ∨ member ∈ members := by
  induction members with
  | nil => exact Or.inl (List.mem_singleton.1 here)
  | cons head rest inductionHypothesis =>
      rcases head with ⟨other, old⟩
      rw [Members.put] at here
      split at here
      · exact (List.mem_cons.1 here).imp_right (List.mem_cons_of_mem _)
      · rcases List.mem_cons.1 here with same | later
        · exact Or.inr (List.mem_cons.2 (Or.inl same))
        · exact (inductionHypothesis later).imp_right (List.mem_cons_of_mem _)

theorem mem_of_mem_ofPairs {α : Type} {pairs : List (String × α)} {member : String × α}
    (here : member ∈ Members.ofPairs pairs) : member ∈ pairs := by
  have step : ∀ (rest earlier : Members α),
      member ∈ rest.foldl (fun members pair => Members.put pair.1 pair.2 members) earlier →
        member ∈ earlier ∨ member ∈ rest := by
    intro rest
    induction rest with
    | nil => exact fun earlier here => Or.inl here
    | cons pair rest inductionHypothesis =>
        intro earlier here
        rcases inductionHypothesis _ here with put | later
        · rcases mem_put put with same | before
          · exact Or.inr (List.mem_cons.2 (Or.inl same))
          · exact Or.inl before
        · exact Or.inr (List.mem_cons_of_mem pair later)
  exact (step pairs [] here).resolve_left List.not_mem_nil

theorem depthOfItems_le_iff {items : List Json} {levels : Nat} :
    depthOfItems items ≤ levels ↔ ∀ item ∈ items, item.depth ≤ levels := by
  induction items with
  | nil => simp [depthOfItems]
  | cons item rest inductionHypothesis =>
      rw [depthOfItems, Nat.max_le, inductionHypothesis, List.forall_mem_cons]

theorem depthOfMembers_le_iff {members : List (String × Json)} {levels : Nat} :
    depthOfMembers members ≤ levels ↔ ∀ member ∈ members, member.2.depth ≤ levels := by
  induction members with
  | nil => simp [depthOfMembers]
  | cons member rest inductionHypothesis =>
      rw [depthOfMembers, Nat.max_le, inductionHypothesis, List.forall_mem_cons]

/-- A well-formed value within a number of levels. -/
def Within (levels : Nat) (value : Json) : Prop := value.WellFormed ∧ value.depth ≤ levels

theorem within_object {levels : Nat} {members : List (String × Json)}
    (distinct : (members.map Prod.fst).Nodup)
    (within : ∀ member ∈ members, member.2.Within levels) :
    (Json.object members).Within (levels + 1) :=
  ⟨⟨distinct, wellFormedMembers_iff.2 fun member here => (within member here).1⟩,
    Nat.succ_le_succ (depthOfMembers_le_iff.2 fun member here => (within member here).2)⟩

theorem within_object_ofPairs {levels : Nat} {pairs : List (String × Json)}
    (within : ∀ member ∈ pairs, member.2.Within levels) :
    (Json.object (Members.ofPairs pairs)).Within (levels + 1) :=
  within_object (Members.nodup_names_ofPairs pairs) fun member here =>
    within member (mem_of_mem_ofPairs here)

theorem within_array {levels : Nat} {items : List Json}
    (within : ∀ item ∈ items, item.Within levels) : (Json.array items).Within (levels + 1) :=
  ⟨wellFormedItems_iff.2 fun item here => (within item here).1,
    Nat.succ_le_succ (depthOfItems_le_iff.2 fun item here => (within item here).2)⟩

theorem Within.item {levels : Nat} {items : List Json}
    (within : (Json.array items).Within (levels + 1)) :
    ∀ item ∈ items, item.Within levels := fun item here =>
  ⟨wellFormedItems_iff.1 within.1 item here,
    depthOfItems_le_iff.1 (Nat.le_of_succ_le_succ within.2) item here⟩

theorem Within.member {levels : Nat} {members : List (String × Json)}
    (within : (Json.object members).Within (levels + 1)) :
    ∀ member ∈ members, member.2.Within levels := fun member here =>
  ⟨wellFormedMembers_iff.1 within.1.2 member here,
    depthOfMembers_le_iff.1 (Nat.le_of_succ_le_succ within.2) member here⟩

namespace Tree

mutual

/-- The value of a tree that fits is well formed and as deep as was asked for. -/
theorem within_of_value? : ∀ {tree : Tree} {levels : Nat} {value : Json}, tree.Fits →
    tree.value? levels = some value → value.Within levels
  | .null, _, _, _, read => by
      rw [value?, Option.some.injEq] at read
      rw [← read]
      exact ⟨trivial, Nat.zero_le _⟩
  | .bool _, _, _, _, read => by
      rw [value?, Option.some.injEq] at read
      rw [← read]
      exact ⟨trivial, Nat.zero_le _⟩
  | .number none, _, _, _, read => by
      rw [value?] at read
      cases read
  | .number (some _), _, _, fits, read => by
      rw [value?, Option.map_some, Option.some.injEq] at read
      rw [← read]
      exact ⟨fits, Nat.zero_le _⟩
  | .string none, _, _, _, read => by
      rw [value?] at read
      cases read
  | .string (some _), _, _, _, read => by
      rw [value?, Option.map_some, Option.some.injEq] at read
      rw [← read]
      exact ⟨trivial, Nat.zero_le _⟩
  | .array _ _, 0, _, _, read => by
      rw [value?] at read
      cases read
  | .array items closed, levels + 1, value, fits, read => by
      rw [value?] at read
      split at read
      · rcases Option.map_eq_some_iff.1 read with ⟨values, itemsRead, rfl⟩
        exact within_array (within_of_itemValues? fits itemsRead)
      · cases read
  | .object _ _, 0, _, _, read => by
      rw [value?] at read
      cases read
  | .object members closed, levels + 1, value, fits, read => by
      rw [value?] at read
      split at read
      · rcases Option.map_eq_some_iff.1 read with ⟨pairs, membersRead, rfl⟩
        exact within_object_ofPairs (within_of_memberValues? fits membersRead)
      · cases read
  | .broken, _, _, _, read => by
      rw [value?] at read
      cases read

theorem within_of_itemValues? : ∀ {items : List Tree} {levels : Nat} {values : List Json},
    FitsItems items → itemValues? levels items = some values →
    ∀ value ∈ values, value.Within levels
  | [], _, _, _, read => by
      rw [itemValues?, Option.some.injEq] at read
      rw [← read]
      exact fun _ here => absurd here List.not_mem_nil
  | item :: rest, levels, values, fits, read => by
      simp only [itemValues?, Option.bind_eq_bind, Option.bind_eq_some_iff,
        Option.some.injEq] at read
      rcases read with ⟨first, firstRead, others, othersRead, rfl⟩
      exact List.forall_mem_cons.2
        ⟨within_of_value? fits.1 firstRead, within_of_itemValues? fits.2 othersRead⟩

theorem within_of_memberValues? : ∀ {members : List (Option String × Tree)} {levels : Nat}
    {pairs : List (String × Json)}, FitsMembers members →
    memberValues? levels members = some pairs → ∀ pair ∈ pairs, pair.2.Within levels
  | [], _, _, _, read => by
      rw [memberValues?, Option.some.injEq] at read
      rw [← read]
      exact fun _ here => absurd here List.not_mem_nil
  | (name?, member) :: rest, levels, pairs, fits, read => by
      simp only [memberValues?, Option.bind_eq_bind, Option.bind_eq_some_iff,
        Option.some.injEq] at read
      rcases read with ⟨name, -, first, firstRead, others, othersRead, rfl⟩
      exact List.forall_mem_cons.2
        ⟨within_of_value? fits.1 firstRead, within_of_memberValues? fits.2 othersRead⟩

end

theorem fits_ofText (text : String) : (Document.ofText text).root.Fits := by
  have fits := (fits_scan (2 * text.toList.length + 2)).1 text.toList
  simp only [Document.ofText]
  split
  next read =>
    rw [read] at fits
    exact fits
  next read =>
    rw [read] at fits
    exact fits

end Tree

/-- What is parsed is well formed and not too deep. -/
theorem within_of_parse {text : String} {value : Json} (read : parse text = .ok value) :
    value.Within Tree.levelLimit := by
  have fits := Tree.fits_ofText text
  rw [parse, Document.read, Tree.generic] at read
  split at read
  next found =>
    have within := Tree.within_of_value? fits found
    change (if _ then Except.ok _ else Except.error _) = Except.ok value at read
    split at read
    · rw [← Except.ok.inj read]
      exact within
    · cases read
  next => cases read

end Json
end ContainerBuild
