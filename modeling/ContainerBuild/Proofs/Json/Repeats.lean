import ContainerBuild.Proofs.Json.Reading
import Mathlib.Data.List.Induction

namespace ContainerBuild

/-!
# Names that a text repeats

A text may name a member twice.  What it then describes has the name once, at its first place and
with its last value (`Members.ofPairs_eq_lastOfEach`), at any depth: the value of a text is the
value that it says, every repeat kept apart, with its repeats resolved (`Json.said_of_parse`).
-/

namespace Members

variable {α β : Type}

theorem ofPairs_concat (pairs : Members α) (last : String × α) :
    ofPairs (pairs ++ [last]) = put last.1 last.2 (ofPairs pairs) :=
  List.foldl_concat _ _ _ _

/-- Each name where it comes first, with the value that comes last. -/
def lastOfEach (pairs : Members α) : Members α :=
  pairs.names.eraseDups.filterMap fun name =>
    (pairs.reverse.lookup name).map fun value => (name, value)

theorem names_put (name : String) (value : α) (members : Members α) :
    (put name value members).names =
      members.names ++ if name ∈ members.names then [] else [name] := by
  induction members with
  | nil => rfl
  | cons head rest inductionHypothesis =>
      rcases head with ⟨other, old⟩
      rw [put]
      by_cases same : other = name
      · subst same
        simp [names]
      · have later : name ∈ names ((other, old) :: rest) ↔ name ∈ names rest := by
          simp [names, Ne.symm same]
        simp only [if_neg same, later]
        exact congrArg (other :: ·) inductionHypothesis

theorem names_ofPairs (pairs : Members α) : (ofPairs pairs).names = pairs.names.eraseDups := by
  induction pairs using List.reverseRecOn with
  | nil => rfl
  | append_singleton pairs last inductionHypothesis =>
      rw [ofPairs_concat, names_put, inductionHypothesis, names, names, List.map_append,
        List.map_singleton, List.eraseDups_append]
      congr 1
      by_cases again : last.1 ∈ pairs.map Prod.fst
      · simp [List.removeAll, again]
      · simp [List.removeAll, List.eraseDups_cons, again]

theorem lookup_ofPairs (pairs : Members α) (name : String) :
    (ofPairs pairs).lookup name = pairs.reverse.lookup name := by
  induction pairs using List.reverseRecOn with
  | nil => rfl
  | append_singleton pairs last inductionHypothesis =>
      rw [ofPairs_concat, List.reverse_append, List.reverse_singleton, List.singleton_append,
        List.lookup_cons]
      by_cases same : name = last.1
      · rw [same, lookup_put_self, beq_self_eq_true]
      · rw [lookup_put_of_ne _ _ same, beq_false_of_ne same, inductionHypothesis]

/-- Members of distinct names are told by their names and what these find. -/
theorem eq_filterMap_names {members : Members α} (distinct : members.names.Nodup) :
    members = members.names.filterMap fun name =>
      (members.lookup name).map fun value => (name, value) := by
  have each : ∀ member ∈ members, ((members.lookup member.1).map fun value => (member.1, value)) =
      some member := fun member here => by
    rw [(lookup_eq_some_iff_mem distinct).2 here]
    rfl
  rw [names, List.filterMap_map]
  exact (List.filterMap_some.symm.trans (List.filterMap_congr each).symm)

/-- A repeated name keeps its first place and takes its last value. -/
theorem ofPairs_eq_lastOfEach (pairs : Members α) : ofPairs pairs = lastOfEach pairs := by
  rw [eq_filterMap_names (nodup_names_ofPairs pairs), names_ofPairs, lastOfEach]
  simp only [lookup_ofPairs]

theorem ofPairs_append (pairs more : Members α) : ofPairs (pairs ++ more) =
    more.foldl (fun members pair => put pair.1 pair.2 members) (ofPairs pairs) :=
  List.foldl_append

theorem ofPairs_ofPairs_append (pairs more : Members α) :
    ofPairs (ofPairs pairs ++ more) = ofPairs (pairs ++ more) := by
  rw [ofPairs_append, ofPairs_append, ofPairs_of_nodup (nodup_names_ofPairs pairs)]

/-- Members that come once more change nothing. -/
theorem ofPairs_append_append (pairs more : Members α) :
    ofPairs (pairs ++ more ++ more) = ofPairs (pairs ++ more) := by
  have places : (pairs ++ more ++ more).names.eraseDups = (pairs ++ more).names.eraseDups := by
    have seen : more.names.removeAll (pairs ++ more).names = [] := by
      refine List.filter_eq_nil_iff.2 fun name here fresh => ?_
      have before : name ∈ (pairs ++ more).names := by
        rw [names, List.map_append]
        exact List.mem_append_right _ here
      simp [before] at fresh
    have parts : (pairs ++ more ++ more).names = (pairs ++ more).names ++ more.names :=
      List.map_append
    rw [parts, List.eraseDups_append, seen, List.eraseDups_nil, List.append_nil]
  have values (name : String) : (pairs ++ more ++ more).reverse.lookup name =
      (pairs ++ more).reverse.lookup name := by
    rw [List.reverse_append, List.reverse_append, List.lookup_append, List.lookup_append,
      ← Option.or_assoc, Option.or_self]
  rw [ofPairs_eq_lastOfEach, ofPairs_eq_lastOfEach, lastOfEach, lastOfEach, places]
  simp only [values]

/-! ## Parts of members -/

/-- A member of a name that is kept is put among those that are kept. -/
theorem filter_put_of_kept {name : String} {value : α} {members : Members α}
    {kept : String → Bool} (isKept : kept name = true) :
    (put name value members).filter (fun member => kept member.1) =
      put name value (members.filter fun member => kept member.1) := by
  induction members with
  | nil => exact List.filter_eq_self.2 (List.forall_mem_singleton.2 isKept)
  | cons head rest inductionHypothesis =>
      rcases head with ⟨other, old⟩
      rw [put]
      by_cases same : other = name
      · subst same
        rw [if_pos rfl, List.filter_cons, if_pos isKept, List.filter_cons, if_pos isKept, put,
          if_pos rfl]
      · rw [if_neg same, List.filter_cons, List.filter_cons, inductionHypothesis]
        split
        · rw [put, if_neg same]
        · rfl

/-- Members are chosen by name before or after repeats are resolved. -/
theorem filter_ofPairs (kept : String → Bool) (pairs : Members α) :
    (ofPairs pairs).filter (fun member => kept member.1) =
      ofPairs (pairs.filter fun member => kept member.1) := by
  induction pairs using List.reverseRecOn with
  | nil => rfl
  | append_singleton pairs last inductionHypothesis =>
      rw [ofPairs_concat, List.filter_append, List.filter_cons, List.filter_nil]
      cases named : kept last.1 with
      | true => rw [filter_put_of_kept named, inductionHypothesis, if_pos rfl, ofPairs_concat]
      | false =>
          rw [filter_put named, inductionHypothesis, if_neg Bool.false_ne_true, List.append_nil]

theorem put_map (change : α → β) (name : String) (value : α) (members : Members α) :
    (put name value members).map (fun member => (member.1, change member.2)) =
      put name (change value) (members.map fun member => (member.1, change member.2)) := by
  induction members with
  | nil => rfl
  | cons head rest inductionHypothesis =>
      rcases head with ⟨other, old⟩
      rw [put, List.map_cons, put]
      split
      · rfl
      · rw [List.map_cons, inductionHypothesis]

/-- Values are changed before or after repeats are resolved. -/
theorem map_ofPairs (change : α → β) (pairs : Members α) :
    (ofPairs pairs).map (fun member => (member.1, change member.2)) =
      ofPairs (pairs.map fun member => (member.1, change member.2)) := by
  induction pairs using List.reverseRecOn with
  | nil => rfl
  | append_singleton pairs last inductionHypothesis =>
      rw [ofPairs_concat, put_map, inductionHypothesis, List.map_append, List.map_singleton,
        ofPairs_concat]

end Members

namespace Json

/-! ## What a text says -/

namespace Tree

mutual

/-- The value that a tree says, members of one name kept apart; none if it is broken anywhere or
has a part without a value. -/
def said? : Tree → Option Json
  | .null => some .null
  | .bool value => some (.bool value)
  | .number value => value.map .number
  | .string value => value.map .string
  | .array items closed => if closed then (itemsSaid? items).map .array else none
  | .object members closed => if closed then (membersSaid? members).map .object else none
  | .broken => none

/-- What items say. -/
def itemsSaid? : List Tree → Option (List Json)
  | [] => some []
  | item :: rest => do
      let value ← item.said?
      let values ← itemsSaid? rest
      some (value :: values)

/-- What members say, under their names. -/
def membersSaid? : List (Option String × Tree) → Option (List (String × Json))
  | [] => some []
  | (name?, member) :: rest => do
      let name ← name?
      let value ← member.said?
      let values ← membersSaid? rest
      some ((name, value) :: values)

end

end Tree

mutual

/-- A value without repeats: in every object each name stands where it comes first, with the value
that comes last. -/
def resolved : Json → Json
  | .array items => .array (resolvedItems items)
  | .object members => .object (Members.lastOfEach (resolvedMembers members))
  | value => value

/-- Items without repeats in them. -/
def resolvedItems : List Json → List Json
  | [] => []
  | item :: rest => item.resolved :: resolvedItems rest

/-- Members without repeats in their values. -/
def resolvedMembers : List (String × Json) → List (String × Json)
  | [] => []
  | (name, value) :: rest => (name, value.resolved) :: resolvedMembers rest

end

namespace Tree

mutual

/-- The value of a tree is what the tree says, its repeats resolved. -/
theorem said_of_value? : ∀ {tree : Tree} {levels : Nat} {value : Json},
    tree.value? levels = some value → ∃ said, tree.said? = some said ∧ value = said.resolved
  | .null, _, _, read => by
      rw [value?, Option.some.injEq] at read
      exact ⟨.null, rfl, read.symm⟩
  | .bool value, _, _, read => by
      rw [value?, Option.some.injEq] at read
      exact ⟨.bool value, rfl, read.symm⟩
  | .number _, _, _, read => by
      rw [value?, Option.map_eq_some_iff] at read
      rcases read with ⟨number, rfl, rfl⟩
      exact ⟨.number number, rfl, rfl⟩
  | .string _, _, _, read => by
      rw [value?, Option.map_eq_some_iff] at read
      rcases read with ⟨text, rfl, rfl⟩
      exact ⟨.string text, rfl, rfl⟩
  | .array _ _, 0, _, read => by
      rw [value?] at read
      cases read
  | .array items closed, levels + 1, value, read => by
      rw [value?] at read
      cases closed with
      | false => cases read
      | true =>
          rcases Option.map_eq_some_iff.1 read with ⟨values, itemsRead, rfl⟩
          rcases itemsSaid_of_itemValues? itemsRead with ⟨said, saidRead, same⟩
          exact ⟨.array said, congrArg (Option.map Json.array) saidRead, congrArg Json.array same⟩
  | .object _ _, 0, _, read => by
      rw [value?] at read
      cases read
  | .object members closed, levels + 1, value, read => by
      rw [value?] at read
      cases closed with
      | false => cases read
      | true =>
          rcases Option.map_eq_some_iff.1 read with ⟨pairs, membersRead, rfl⟩
          rcases membersSaid_of_memberValues? membersRead with ⟨said, saidRead, same⟩
          refine ⟨.object said, congrArg (Option.map Json.object) saidRead, ?_⟩
          rw [resolved, ← same, Members.ofPairs_eq_lastOfEach]
  | .broken, _, _, read => by
      rw [value?] at read
      cases read

theorem itemsSaid_of_itemValues? : ∀ {items : List Tree} {levels : Nat} {values : List Json},
    itemValues? levels items = some values →
      ∃ said, itemsSaid? items = some said ∧ values = resolvedItems said
  | [], _, _, read => by
      rw [itemValues?, Option.some.injEq] at read
      exact ⟨[], rfl, read.symm⟩
  | item :: rest, levels, values, read => by
      simp only [itemValues?, Option.bind_eq_bind, Option.bind_eq_some_iff,
        Option.some.injEq] at read
      rcases read with ⟨first, firstRead, others, othersRead, rfl⟩
      rcases said_of_value? firstRead with ⟨said, saidRead, rfl⟩
      rcases itemsSaid_of_itemValues? othersRead with ⟨saids, saidsRead, rfl⟩
      refine ⟨said :: saids, ?_, rfl⟩
      rw [itemsSaid?, saidRead, saidsRead]
      rfl

theorem membersSaid_of_memberValues? : ∀ {members : List (Option String × Tree)} {levels : Nat}
    {pairs : List (String × Json)}, memberValues? levels members = some pairs →
      ∃ said, membersSaid? members = some said ∧ pairs = resolvedMembers said
  | [], _, _, read => by
      rw [memberValues?, Option.some.injEq] at read
      exact ⟨[], rfl, read.symm⟩
  | (name?, member) :: rest, levels, pairs, read => by
      simp only [memberValues?, Option.bind_eq_bind, Option.bind_eq_some_iff,
        Option.some.injEq] at read
      rcases read with ⟨name, rfl, first, firstRead, others, othersRead, rfl⟩
      rcases said_of_value? firstRead with ⟨said, saidRead, rfl⟩
      rcases membersSaid_of_memberValues? othersRead with ⟨saids, saidsRead, rfl⟩
      refine ⟨(name, said) :: saids, ?_, rfl⟩
      simp only [membersSaid?, saidRead, saidsRead, Option.bind_eq_bind, Option.bind_some]

end

end Tree

/-- The value of a text is what the text says, its repeats resolved. -/
theorem said_of_parse {text : String} {value : Json} (parsed : parse text = .ok value) :
    ∃ said, (Document.ofText text).root.said? = some said ∧ value = said.resolved :=
  Tree.said_of_value? (parse_ok_iff.1 parsed).1

end Json
end ContainerBuild
