import ContainerBuild.Params.ImageTag
import ContainerBuild.Proofs.Time.Digits

namespace ContainerBuild
namespace ImageTag

/-!
# Image tags apart

The user, the component, the target and the platform may hold digits and dashes of their own.
Builds of one component share them, so they stand at both ends of their tags and come off; of
what stays, the digits end at the first dash.
-/

/-! ## Draws -/

/-- What is dealt out has five digits. -/
theorem fiveDigits_mem (draws : List UInt32) :
    10000 ≤ fiveDigits draws ∧ fiveDigits draws ≤ 99999 := by
  induction draws with
  | nil => decide
  | cons draw rest inductionHypothesis =>
      rw [fiveDigits]
      split
      next =>
        have word := draw.toNat_lt
        unfold least spread UInt32.size
        omega
      next => exact inductionHypothesis

/-- The least word of the share of a number is dealt out, and gives that number. -/
theorem exists_fiveDigits_eq {digits : Nat} (low : 10000 ≤ digits) (high : digits ≤ 99999) :
    ∃ draw : UInt32, fiveDigits [draw] = digits := by
  have exists_word : ∃ word : Nat, word < UInt32.size ∧
      (digits - 10000) * UInt32.size ≤ word * spread ∧
        word * spread < (digits - 10000) * UInt32.size + spread := by
    unfold UInt32.size spread
    exact ⟨((digits - 10000) * 4294967296 + 89999) / 90000, by omega⟩
  rcases exists_word with ⟨word, small, atLeast, less⟩
  have quotient : word * spread / UInt32.size = digits - 10000 := by
    apply Nat.div_eq_of_lt_le atLeast
    rw [Nat.succ_mul]
    exact less.trans (Nat.add_lt_add_left (by decide) _)
  have parts := Nat.div_add_mod (word * spread) UInt32.size
  have fair : isFair (UInt32.ofNat word) = true := by
    rw [isFair, UInt32.toNat_ofNat_of_lt' small, decide_eq_true_eq]
    rw [quotient, Nat.mul_comm] at parts
    unfold spread at *
    omega
  refine ⟨UInt32.ofNat word, ?_⟩
  rw [fiveDigits, if_pos fair, UInt32.toNat_ofNat_of_lt' small, quotient]
  exact Nat.add_sub_cancel' low

/-- Exactly the numbers of five digits are drawn. -/
theorem exists_draws_iff {digits : Nat} :
    (∃ draws, fiveDigits draws = digits) ↔ 10000 ≤ digits ∧ digits ≤ 99999 := by
  constructor
  · rintro ⟨draws, rfl⟩
    exact fiveDigits_mem draws
  · rintro ⟨low, high⟩
    rcases exists_fiveDigits_eq low high with ⟨draw, drawn⟩
    exact ⟨[draw], drawn⟩

/-! ## Tags -/

/-- The digits of a number end where the first dash stands. -/
theorem toString_append_dash_inj {first second : Nat} {rest rest' : String}
    (same : toString first ++ "-" ++ rest = toString second ++ "-" ++ rest') :
    first = second ∧ rest = rest' := by
  have dash : ("-" : String).toList = ['-'] := rfl
  have texts := congrArg (Json.Numeral.digits ∘ String.toList) same
  simp only [Function.comp_apply, String.toList_append, Nat.toString_eq_ofList_toDigits,
    String.toList_ofList, dash, List.append_assoc, List.cons_append, List.nil_append] at texts
  have stops (tail : List Char) := Json.Numeral.noDigit_cons (by decide : '-'.isDigit = false) tail
  have apart (value : Nat) (tail : List Char) :
      Json.Numeral.digits (Nat.toDigits 10 value ++ '-' :: tail) =
        (Nat.toDigits 10 value, '-' :: tail) :=
    Json.Numeral.digits_append (fun c => Json.Numeral.isDigit_of_mem_decimalDigits) (stops tail)
  rw [apart, apart, Prod.mk.injEq, List.cons.injEq] at texts
  have numbers := congrArg Json.Numeral.ofDigits texts.1
  rw [← Json.decimalDigits, ← Json.decimalDigits,
    Json.Numeral.ofDigits_decimalDigits, Json.Numeral.ofDigits_decimalDigits] at numbers
  exact ⟨numbers, String.toList_injective texts.2.2⟩

/-- Tags of one component are the same exactly if the numbers are, and the seconds. -/
theorem ofDigits_eq_iff (params : SharedParams) {first second : Nat} {start stop : Instant} :
    ofDigits params first start = ofDigits params second stop ↔
      first = second ∧ Instant.SameSecond start stop := by
  rw [← Instant.digitsText_eq_iff]
  constructor
  · intro same
    simp only [ofDigits, String.append_left_inj] at same
    simp only [String.append_assoc, String.append_right_inj] at same
    simp only [← String.append_assoc] at same
    exact toString_append_dash_inj same
  · rintro ⟨numbers, seconds⟩
    simp only [ofDigits, numbers, seconds]

/-- Builds of one component never share a tag: fresh tags are the same only if the same number
was drawn and the instants lie in the same second, whatever the year and whatever number of five
digits was drawn. -/
theorem tags_apart (params : SharedParams) (start stop : Instant) :
    (∀ first second : Nat, ofDigits params first start = ofDigits params second stop ↔
      first = second ∧ start.SameSecond stop) ∧
    (∀ first second : List UInt32, make params start first = make params stop second ↔
      fiveDigits first = fiveDigits second ∧ start.SameSecond stop) ∧
    ∀ digits : Nat, (∃ draws, fiveDigits draws = digits) ↔ 10000 ≤ digits ∧ digits ≤ 99999 :=
  ⟨fun _ _ => ofDigits_eq_iff params, fun _ _ => ofDigits_eq_iff params, fun _ => exists_draws_iff⟩

/-- A leap second has a tag of its own, also in a year of five digits. -/
example : (⟨2933262, 86399, 1500000000, by decide, by decide⟩ : Instant).digitsText =
    "+100001231235960" := by decide +kernel

end ImageTag
end ContainerBuild
