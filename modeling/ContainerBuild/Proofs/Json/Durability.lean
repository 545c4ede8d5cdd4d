import ContainerBuild.Json.Fault
import ContainerBuild.Proofs.Json.Numeral
import ContainerBuild.Proofs.Json.Reordering

namespace ContainerBuild

/-!
# Values whose numbers last

A floating-point number is the nearest to its own text, but reading rounds on the way and need not
arrive at it: `5e32` is read as `5.0000000000000004e+32`, and that as `5e+32`.  A number that the
reader makes of its own text is durable, and so is a value whose floating-point numbers all are.

Durability is a matter of which numbers a value has, so the order of members does not affect it
(`durable_iff_of_reorders`).
-/

/-- The reader makes the number of the text that the writer makes of it. -/
def Binary64.Durable (x : Binary64) : Prop :=
  (Json.Numeral.scan (Json.floatText x)).bind (fun read => read.1.value?) = some (.float x)

instance (x : Binary64) : Decidable x.Durable := by
  unfold Binary64.Durable; infer_instance

namespace Json

mutual

/-- The floating-point numbers of a value, in the order of the text. -/
def floats : Json → List Binary64
  | .number (.float x) => [x]
  | .array items => floatsOfItems items
  | .object members => floatsOfMembers members
  | _ => []

/-- The floating-point numbers of items. -/
def floatsOfItems : List Json → List Binary64
  | [] => []
  | item :: rest => item.floats ++ floatsOfItems rest

/-- The floating-point numbers of the values of members. -/
def floatsOfMembers : List (String × Json) → List Binary64
  | [] => []
  | (_, value) :: rest => value.floats ++ floatsOfMembers rest

end

/-- Every floating-point number of a value is read back from its text. -/
def Durable (value : Json) : Prop := ∀ x ∈ value.floats, x.Durable

instance (value : Json) : Decidable value.Durable := by
  unfold Durable; infer_instance

/-- Every floating-point number that is read from a text is read back from a text of its own. -/
def DurableText (text : String) : Prop := ∀ value, parse text = .ok value → value.Durable

instance (text : String) : Decidable (DurableText text) :=
  decidable_of_iff ((parse text).toOption.all fun value => decide value.Durable) <| by
    rw [DurableText]
    cases parse text with
    | error fault => exact iff_of_true rfl fun value read => (by cases read)
    | ok value =>
        refine Iff.trans decide_eq_true_iff ⟨fun durable read same => ?_, fun all => all value rfl⟩
        rwa [← Except.ok.inj same]

/-! ## Parts -/

theorem mem_floatsOfItems {x : Binary64} {items : List Json} :
    x ∈ floatsOfItems items ↔ ∃ item ∈ items, x ∈ item.floats := by
  induction items with
  | nil => simp [floatsOfItems]
  | cons item rest inductionHypothesis =>
      rw [floatsOfItems, List.mem_append, inductionHypothesis, List.exists_mem_cons_iff]

theorem mem_floatsOfMembers {x : Binary64} {members : List (String × Json)} :
    x ∈ floatsOfMembers members ↔ ∃ member ∈ members, x ∈ member.2.floats := by
  induction members with
  | nil => simp [floatsOfMembers]
  | cons member rest inductionHypothesis =>
      rw [floatsOfMembers, List.mem_append, inductionHypothesis, List.exists_mem_cons_iff]

theorem durable_array_iff {items : List Json} :
    (Json.array items).Durable ↔ ∀ item ∈ items, item.Durable := by
  constructor
  · exact fun durable item here x inside =>
      durable x (mem_floatsOfItems.2 ⟨item, here, inside⟩)
  · intro each x inside
    rcases mem_floatsOfItems.1 inside with ⟨item, here, mine⟩
    exact each item here x mine

theorem durable_object_iff {members : List (String × Json)} :
    (Json.object members).Durable ↔ ∀ member ∈ members, member.2.Durable := by
  constructor
  · exact fun durable member here x inside =>
      durable x (mem_floatsOfMembers.2 ⟨member, here, inside⟩)
  · intro each x inside
    rcases mem_floatsOfMembers.1 inside with ⟨member, here, mine⟩
    exact each member here x mine

theorem durable_of_floats_eq_nil {value : Json} (none : value.floats = []) : value.Durable := by
  intro x inside
  rw [none] at inside
  exact absurd inside List.not_mem_nil

/-! ## The order of members -/

theorem floatsOfMembers_perm {members others : List (String × Json)}
    (shuffle : members.Perm others) : (floatsOfMembers members).Perm (floatsOfMembers others) := by
  induction shuffle with
  | nil => exact List.Perm.refl _
  | cons member _ inductionHypothesis => exact inductionHypothesis.append_left _
  | swap first second rest =>
      simp only [floatsOfMembers, ← List.append_assoc]
      exact List.perm_append_comm.append_right _
  | trans _ _ firstHypothesis secondHypothesis => exact firstHypothesis.trans secondHypothesis

mutual

/-- What has its members in another order has the same floating-point numbers. -/
theorem floats_perm_of_reorders : ∀ {value other : Json}, Reorders value other →
    value.floats.Perm other.floats
  | _, _, .same _ => List.Perm.refl _
  | _, _, .array each => floatsOfItems_perm_of_reorders each
  | _, _, .object each shuffle =>
      (floatsOfMembers_perm_of_reorders each).trans (floatsOfMembers_perm shuffle)

theorem floatsOfItems_perm_of_reorders : ∀ {items others : List Json},
    ReordersItems items others → (floatsOfItems items).Perm (floatsOfItems others)
  | _, _, .nil => List.Perm.refl _
  | _, _, .cons head tail =>
      (floats_perm_of_reorders head).append (floatsOfItems_perm_of_reorders tail)

theorem floatsOfMembers_perm_of_reorders : ∀ {members others : List (String × Json)},
    ReordersMembers members others → (floatsOfMembers members).Perm (floatsOfMembers others)
  | _, _, .nil => List.Perm.refl _
  | _, _, .cons _ head tail =>
      (floats_perm_of_reorders head).append (floatsOfMembers_perm_of_reorders tail)

end

theorem durable_iff_of_reorders {value other : Json} (reorders : Reorders value other) :
    value.Durable ↔ other.Durable :=
  forall_congr' fun _ => imp_congr_left (floats_perm_of_reorders reorders).mem_iff

/-! ## Reading back -/

/-- A durable number is written as a numeral that is read as it. -/
theorem exists_spelledBy_text {number : Number} (wellFormed : (Json.number number).WellFormed)
    (durable : (Json.number number).Durable) :
    ∃ numeral : Numeral, numeral.SpelledBy number.text ∧ numeral.value? = some number := by
  cases number with
  | integer _ =>
      rcases Numeral.spelledBy_integerText wellFormed with ⟨numeral, spelled, -, meaning⟩
      exact ⟨numeral, spelled, meaning⟩
  | float x =>
      rcases Numeral.spelledBy_floatText x with ⟨numeral, spelled, -, -⟩
      have read := durable x (List.mem_singleton.2 rfl)
      rw [Binary64.Durable, spelled.scan] at read
      exact ⟨numeral, spelled, read⟩

end Json
end ContainerBuild
