import ContainerBuild.Json.Pointer

namespace ContainerBuild
namespace Json
namespace Pointer

/-!
# The order of pointers

Pointers stand in the order of their texts.  A text determines its pointer, because the escapes
tell the slashes inside a token from those between tokens (`text_injective`).  So an ascending
list is determined by which pointers it holds, and `sort` gives the one ascending list of some
pointers.
-/

/-- A character in the text of a pointer. -/
def escapeChar (c : Char) : List Char :=
  if c = '~' then ['~', '0'] else if c = '/' then ['~', '1'] else [c]

/-- The first character that the text of a token stands for, and what follows it. -/
def readChar : List Char → Option (Char × List Char)
  | '~' :: '0' :: rest => some ('~', rest)
  | '~' :: '1' :: rest => some ('/', rest)
  | c :: rest => some (c, rest)
  | [] => none

theorem readChar_escapeChar_append (c : Char) (rest : List Char) :
    readChar (escapeChar c ++ rest) = some (c, rest) := by
  rw [escapeChar]
  by_cases tilde : c = '~'
  · rw [if_pos tilde, tilde]
    rfl
  · rw [if_neg tilde]
    by_cases slash : c = '/'
    · rw [if_pos slash, slash]
      rfl
    · rw [if_neg slash, List.singleton_append, readChar]
      · exact fun _ same _ => tilde same
      · exact fun _ same _ => tilde same

theorem head?_escapeChar_append (c : Char) (rest : List Char) :
    ∃ first, (escapeChar c ++ rest).head? = some first ∧ first ≠ '/' := by
  rw [escapeChar]
  split
  · exact ⟨'~', rfl, by decide⟩
  split
  · exact ⟨'~', rfl, by decide⟩
  next notSlash => exact ⟨c, rfl, notSlash⟩

/-- What may follow a token in the text of a pointer: nothing, or the next slash. -/
def Follows (rest : List Char) : Prop := ∀ c ∈ rest.head?, c = '/'

/-- The text of a token tells where the token ends. -/
theorem escape_append_inj {token other rest otherRest : List Char} (follows : Follows rest)
    (otherFollows : Follows otherRest)
    (same : token.flatMap escapeChar ++ rest = other.flatMap escapeChar ++ otherRest) :
    token = other ∧ rest = otherRest := by
  induction token generalizing other with
  | nil =>
      cases other with
      | nil => exact ⟨rfl, same⟩
      | cons d other =>
          rw [List.flatMap_cons, List.append_assoc] at same
          rcases head?_escapeChar_append d (other.flatMap escapeChar ++ otherRest) with
            ⟨first, head, notSlash⟩
          rw [← same] at head
          exact absurd (follows first head) notSlash
  | cons c token inductionHypothesis =>
      cases other with
      | nil =>
          rw [List.flatMap_cons, List.append_assoc] at same
          rcases head?_escapeChar_append c (token.flatMap escapeChar ++ rest) with
            ⟨first, head, notSlash⟩
          rw [same] at head
          exact absurd (otherFollows first head) notSlash
      | cons d other =>
          rw [List.flatMap_cons, List.flatMap_cons, List.append_assoc, List.append_assoc] at same
          have read := congrArg readChar same
          rw [readChar_escapeChar_append, readChar_escapeChar_append, Option.some.injEq,
            Prod.mk.injEq] at read
          rcases inductionHypothesis read.2 with ⟨sameToken, sameRest⟩
          exact ⟨by rw [read.1, sameToken], sameRest⟩

theorem follows_tokens (tokens : List String) :
    Follows (tokens.flatMap fun token => '/' :: escapeToken token) := by
  cases tokens with
  | nil =>
      intro c none
      cases none
  | cons token rest =>
      intro c head
      exact (Option.some.inj head).symm

/-- A pointer is determined by its text. -/
theorem text_injective {pointer other : Pointer} (same : pointer.text = other.text) :
    pointer = other := by
  rcases pointer with ⟨tokens⟩
  rcases other with ⟨otherTokens⟩
  rw [text, text, String.ofList_inj] at same
  refine congrArg Pointer.mk ?_
  dsimp only at same
  induction tokens generalizing otherTokens with
  | nil =>
      cases otherTokens with
      | nil => rfl
      | cons => cases same
  | cons token rest inductionHypothesis =>
      cases otherTokens with
      | nil => cases same
      | cons otherToken otherRest =>
          have below := (List.cons.inj same).2
          rcases escape_append_inj (follows_tokens rest) (follows_tokens otherRest) below with
            ⟨sameToken, others⟩
          rw [String.toList_inj.1 sameToken, inductionHypothesis otherRest others]

/-! ## Sorting -/

/-- Pointers stand in the order of their texts, each once. -/
def Ascending (pointers : List Pointer) : Prop :=
  pointers.Pairwise fun earlier later => earlier.text < later.text

theorem place_perm (pointer : Pointer) (pointers : List Pointer) :
    (place pointer pointers).Perm (pointer :: pointers) := by
  induction pointers with
  | nil => exact List.Perm.refl _
  | cons other rest inductionHypothesis =>
      rw [place]
      split
      · exact (inductionHypothesis.cons other).trans (List.Perm.swap pointer other rest)
      · exact List.Perm.refl _

theorem sort_perm (pointers : List Pointer) : (sort pointers).Perm pointers := by
  induction pointers with
  | nil => exact List.Perm.refl _
  | cons pointer rest inductionHypothesis =>
      exact (place_perm pointer (sort rest)).trans (inductionHypothesis.cons pointer)

theorem ascending_place {pointer : Pointer} {pointers : List Pointer}
    (ascending : Ascending pointers) (fresh : pointer ∉ pointers) :
    Ascending (place pointer pointers) := by
  induction pointers with
  | nil => exact List.pairwise_singleton _ _
  | cons other rest inductionHypothesis =>
      have tail := List.pairwise_cons.1 ascending
      have apart := not_or.1 (mt List.mem_cons.2 fresh)
      rw [place]
      by_cases before : other.text < pointer.text
      · rw [if_pos before]
        refine List.pairwise_cons.2 ⟨?_, inductionHypothesis tail.2 apart.2⟩
        intro later here
        rcases List.mem_cons.1 ((place_perm pointer rest).mem_iff.1 here) with rfl | behind
        · exact before
        · exact tail.1 later behind
      · rw [if_neg before]
        have after : pointer.text < other.text :=
          Std.lt_of_le_of_ne (Std.not_lt.1 before) fun same => apart.1 (text_injective same)
        refine List.pairwise_cons.2 ⟨?_, ascending⟩
        intro later here
        rcases List.mem_cons.1 here with rfl | behind
        · exact after
        · exact Std.lt_trans after (tail.1 later behind)

theorem ascending_sort {pointers : List Pointer} (distinct : pointers.Nodup) :
    Ascending (sort pointers) := by
  induction pointers with
  | nil => exact List.Pairwise.nil
  | cons pointer rest inductionHypothesis =>
      have parts := List.nodup_cons.1 distinct
      exact ascending_place (inductionHypothesis parts.2)
        fun here => parts.1 ((sort_perm rest).mem_iff.1 here)

/-- Pointers in order are determined by which pointers they are. -/
theorem Ascending.eq_of_mem_iff {pointers others : List Pointer} (ascending : Ascending pointers)
    (othersAscending : Ascending others)
    (same : ∀ pointer, pointer ∈ pointers ↔ pointer ∈ others) : pointers = others := by
  have distinct {list : List Pointer} (ascending : Ascending list) : list.Nodup := by
    refine List.nodup_iff_pairwise_ne.2 (ascending.imp fun before equal => ?_)
    rw [equal] at before
    exact Std.lt_irrefl before
  exact List.Perm.eq_of_pairwise
    (fun _ _ _ _ before after => absurd (Std.lt_trans before after) Std.lt_irrefl)
    ascending othersAscending
    ((List.perm_ext_iff_of_nodup (distinct ascending) (distinct othersAscending)).2 same)

end Pointer
end Json
end ContainerBuild
