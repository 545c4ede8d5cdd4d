import ContainerBuild.Json.Answer
import Mathlib.Data.List.Induction
import Mathlib.Data.List.Nodup

namespace ContainerBuild

/-!
# What members are found

Among members of distinct names a name finds the one member it names, wherever that member
stands (`lookup_eq_some_iff_mem`).  So dictionaries, which sort their entries, answer as the
members they are made from (`get?_ofList`).
-/

namespace Members

variable {α : Type}

theorem lookup_eq_none_iff_notMem {members : Members α} {name : String} :
    members.lookup name = none ↔ name ∉ members.names := by
  simp only [List.lookup_eq_none_iff, bne_iff_ne, names, List.mem_map, not_exists, not_and]
  exact ⟨fun other member here same => other member here same.symm,
    fun other member here same => other member here same.symm⟩

theorem mem_of_lookup_eq_some {members : Members α} {name : String} {value : α}
    (found : members.lookup name = some value) : (name, value) ∈ members := by
  rcases List.lookup_eq_some_iff.1 found with ⟨before, after, rfl, -⟩
  exact List.mem_append_right before List.mem_cons_self

/-- A name finds the member that it names. -/
theorem lookup_eq_some_iff_mem {members : Members α} (distinct : members.names.Nodup)
    {name : String} {value : α} :
    members.lookup name = some value ↔ (name, value) ∈ members := by
  refine ⟨mem_of_lookup_eq_some, fun here => ?_⟩
  cases found : members.lookup name with
  | none =>
      exact absurd (List.mem_map.2 ⟨_, here, rfl⟩) (lookup_eq_none_iff_notMem.1 found)
  | some other =>
      have same := List.inj_on_of_nodup_map distinct (mem_of_lookup_eq_some found) here rfl
      rw [(Prod.mk.inj same).2]

/-- Members of distinct names that are all among others, and name as much, are the others. -/
theorem perm_of_mem_of_mem_names {members others : Members α} (distinct : members.names.Nodup)
    (othersDistinct : others.names.Nodup) (inOthers : ∀ member ∈ members, member ∈ others)
    (named : ∀ name ∈ others.names, name ∈ members.names) : members.Perm others := by
  refine (List.perm_ext_iff_of_nodup (List.Nodup.of_map _ distinct)
    (List.Nodup.of_map _ othersDistinct)).2 fun member => ⟨inOthers member, fun here => ?_⟩
  have memberNamed := named member.1 (List.mem_map.2 ⟨member, here, rfl⟩)
  rcases List.mem_map.1 memberNamed with ⟨partner, partnerHere, sameName⟩
  have same := List.inj_on_of_nodup_map othersDistinct (inOthers partner partnerHere) here sameName
  rw [← same]
  exact partnerHere

/-! ## Putting members -/

theorem put_of_notMem {name : String} {value : α} {members : Members α}
    (fresh : name ∉ members.names) : put name value members = members ++ [(name, value)] := by
  induction members with
  | nil => rfl
  | cons head rest inductionHypothesis =>
      rcases head with ⟨other, old⟩
      have parts := not_or.1 (mt List.mem_cons.2 fresh)
      rw [put, if_neg (Ne.symm parts.1), inductionHypothesis parts.2, List.cons_append]

/-- Among members of other names it makes no difference what is put. -/
theorem filter_put {name : String} {value : α} {members : Members α}
    {kept : String → Bool} (dropped : kept name = false) :
    (put name value members).filter (fun member => kept member.1) =
      members.filter fun member => kept member.1 := by
  have isDropped : ¬ kept name = true := Bool.eq_false_iff.1 dropped
  induction members with
  | nil => rw [put, List.filter_cons, if_neg isDropped]
  | cons head rest inductionHypothesis =>
      rcases head with ⟨other, old⟩
      rw [put]
      by_cases same : other = name
      · subst same
        rw [if_pos rfl, List.filter_cons, if_neg isDropped, List.filter_cons, if_neg isDropped]
      · rw [if_neg same, List.filter_cons, List.filter_cons, inductionHypothesis]

/-- Members of distinct names describe the object that has them in this order. -/
theorem ofPairs_of_nodup {members : Members α} (distinct : members.names.Nodup) :
    ofPairs members = members := by
  have step : ∀ (rest earlier : Members α), (names (earlier ++ rest)).Nodup →
      rest.foldl (fun members pair => put pair.1 pair.2 members) earlier = earlier ++ rest := by
    intro rest
    induction rest with
    | nil => exact fun earlier _ => (List.append_nil earlier).symm
    | cons pair rest inductionHypothesis =>
        intro earlier distinct
        have fresh : pair.1 ∉ names earlier := by
          intro member
          rw [names, List.map_append] at distinct
          exact (List.nodup_append.1 distinct).2.2 _ member _ List.mem_cons_self rfl
        rw [List.foldl_cons, put_of_notMem fresh, inductionHypothesis _ (by
          rw [List.append_assoc]
          exact distinct), List.append_assoc]
        rfl
  exact step members [] distinct

theorem lookup_single (name : String) (value : α) (other : String) :
    List.lookup other [(name, value)] = if other = name then some value else none := by
  by_cases same : other = name
  · rw [same, List.lookup_cons_self, if_pos rfl]
  · rw [List.lookup_cons, beq_false_of_ne same, if_neg same, List.lookup_nil]

/-- A member that is put unless its name is taken is found if nothing else was. -/
theorem lookup_putNew (name : String) (value : α) (members : Members α) (other : String) :
    (putNew name value members).lookup other =
      (members.lookup other).or (if other = name then some value else none) := by
  rw [putNew]
  split
  next taken =>
    by_cases same : other = name
    · rw [same]
      rcases Option.isSome_iff_exists.1 taken with ⟨old, found⟩
      rw [found, Option.some_or]
    · rw [if_neg same, Option.or_none]
  next => rw [List.lookup_append, lookup_single]

theorem nodup_names_putNew (name : String) (value : α) {members : Members α}
    (distinct : members.names.Nodup) : (putNew name value members).names.Nodup := by
  rw [putNew]
  split
  next => exact distinct
  next free =>
    have fresh : name ∉ members.names := by
      rw [← lookup_eq_none_iff_notMem]
      exact Option.not_isSome_iff_eq_none.1 free
    rw [← put_of_notMem fresh]
    exact nodup_names_put name value distinct

/-! ## Taking members out -/

/-- Where a member of distinct names stands makes no difference to what is found. -/
theorem lookup_perm {members others : Members α} (distinct : members.names.Nodup)
    (shuffle : members.Perm others) (name : String) :
    members.lookup name = others.lookup name := by
  have othersDistinct : others.names.Nodup := (shuffle.map Prod.fst).nodup_iff.1 distinct
  refine Option.ext fun value => ?_
  rw [lookup_eq_some_iff_mem distinct, lookup_eq_some_iff_mem othersDistinct, shuffle.mem_iff]

/-- Taking a member out leaves the members of other names. -/
theorem takeOut_perm {name : String} {members : Members α} (distinct : members.names.Nodup) :
    (takeOut name members).Perm (members.filter fun member => member.1 != name) := by
  induction members with
  | nil => exact List.Perm.refl _
  | cons head rest inductionHypothesis =>
      rcases head with ⟨other, value⟩
      have parts := List.nodup_cons.1 distinct
      rw [takeOut]
      by_cases same : other = name
      · subst same
        have others : rest.filter (fun member => member.1 != other) = rest := by
          refine List.filter_eq_self.2 fun member here => bne_iff_ne.2 fun equal => ?_
          exact parts.1 (equal ▸ List.mem_map.2 ⟨member, here, rfl⟩)
        rw [if_pos rfl, List.filter_cons_of_neg (by simp), others]
        cases last : rest.getLast? with
        | none => rw [List.getLast?_eq_none_iff.1 last]
        | some member =>
            rw [List.getLast?_eq_some_iff] at last
            rcases last with ⟨before, rfl⟩
            rw [List.dropLast_concat]
            exact (List.perm_append_singleton member before).symm
      · rw [if_neg same, List.filter_cons_of_pos (by simpa using same)]
        exact (inductionHypothesis parts.2).cons _

theorem nodup_names_takeOut {members : Members α} (distinct : members.names.Nodup)
    (name : String) : (takeOut name members).names.Nodup :=
  ((takeOut_perm distinct).map Prod.fst).nodup_iff.2
    (distinct.sublist (List.filter_sublist.map Prod.fst))

theorem mem_names_takeOut {members : Members α} (distinct : members.names.Nodup)
    {name other : String} :
    other ∈ (takeOut name members).names ↔ other ≠ name ∧ other ∈ members.names := by
  rw [names, ((takeOut_perm distinct).map Prod.fst).mem_iff]
  constructor
  · intro here
    rcases List.mem_map.1 here with ⟨member, kept, rfl⟩
    rcases List.mem_filter.1 kept with ⟨inside, apart⟩
    exact ⟨bne_iff_ne.1 apart, List.mem_map.2 ⟨member, inside, rfl⟩⟩
  · rintro ⟨apart, inside⟩
    rcases List.mem_map.1 inside with ⟨member, here, rfl⟩
    exact List.mem_map.2 ⟨member, List.mem_filter.2 ⟨here, bne_iff_ne.2 apart⟩, rfl⟩

theorem lookup_takeOut {members : Members α} (distinct : members.names.Nodup)
    (name other : String) : (takeOut name members).lookup other =
      if other = name then none else members.lookup other := by
  refine Option.ext fun value => ?_
  rw [lookup_eq_some_iff_mem (nodup_names_takeOut distinct name), (takeOut_perm distinct).mem_iff,
    List.mem_filter]
  by_cases same : other = name
  · simp [same]
  · rw [if_neg same, lookup_eq_some_iff_mem distinct]
    simp [same]

/-! ## Choosing members -/

theorem lookup_map {β : Type} (change : α → β) (members : Members α) (name : String) :
    (members.map fun member => (member.1, change member.2)).lookup name =
      (members.lookup name).map change := by
  induction members with
  | nil => rfl
  | cons member rest inductionHypothesis =>
      rw [List.map_cons, List.lookup_cons, List.lookup_cons]
      cases name == member.1 with
      | true => rfl
      | false => exact inductionHypothesis

/-- Among members of distinct names the one that is found is kept or dropped by itself. -/
theorem lookup_filter {members : Members α} (distinct : members.names.Nodup) (kept : α → Bool)
    (name : String) : (members.filter fun member => kept member.2).lookup name =
      (members.lookup name).filter kept := by
  refine Option.ext fun value => ?_
  rw [lookup_eq_some_iff_mem (distinct.sublist (List.filter_sublist.map Prod.fst)),
    List.mem_filter, ← lookup_eq_some_iff_mem distinct, Option.filter_eq_some_iff]

/-- Members that are gathered name by name are found under the names that are asked for. -/
theorem lookup_filterMap (names : List String) (value? : String → Option α) (name : String) :
    (names.filterMap fun name => (value? name).map fun value => (name, value)).lookup name =
      if name ∈ names then value? name else none := by
  induction names with
  | nil => rfl
  | cons other rest inductionHypothesis =>
      rw [List.filterMap_cons]
      by_cases same : name = other
      · subst same
        rw [if_pos List.mem_cons_self]
        cases value : value? name with
        | none =>
            rw [Option.map_none, inductionHypothesis, value, ite_self]
        | some x => rw [Option.map_some, List.lookup_cons_self]
      · have member : name ∈ other :: rest ↔ name ∈ rest := by simp [same]
        simp only [member]
        cases value? other with
        | none => rw [Option.map_none, inductionHypothesis]
        | some x =>
            rw [Option.map_some, List.lookup_cons, beq_false_of_ne same, inductionHypothesis]

theorem names_filterMap (names : List String) (value? : String → Option α) :
    Members.names (names.filterMap fun name => (value? name).map fun value => (name, value)) =
      names.filter fun name => (value? name).isSome := by
  induction names with
  | nil => rfl
  | cons name rest inductionHypothesis =>
      rw [Members.names] at inductionHypothesis ⊢
      rw [List.filterMap_cons, List.filter_cons]
      cases value? name with
      | none => exact inductionHypothesis
      | some x => exact congrArg (name :: ·) inductionHypothesis

/-! ## Members and dictionaries -/

theorem lookup_optional (name : String) (value? : Option α) (other : String) :
    (optional name value?).lookup other = if other = name then value? else none := by
  cases value? with
  | none => simp [optional]
  | some value => exact lookup_single name value other

theorem lookup_unknown (members : Members Json) (known : List String) (name : String) :
    (members.unknown known).lookup name =
      if name ∈ known then none else members.lookup name := by
  induction members with
  | nil => simp [unknown]
  | cons head rest inductionHypothesis =>
      rcases head with ⟨other, value⟩
      rw [unknown] at inductionHypothesis ⊢
      by_cases same : name = other
      · subst same
        by_cases isKnown : name ∈ known
        · rw [List.filter_cons_of_neg (by simpa using isKnown), inductionHypothesis,
            if_pos isKnown, if_pos isKnown]
        · rw [List.filter_cons_of_pos (by simpa using isKnown), List.lookup_cons_self,
            if_neg isKnown, List.lookup_cons_self]
      · have unequal : (name == other) = false := beq_false_of_ne same
        by_cases isKnown : other ∈ known
        · rw [List.filter_cons_of_neg (by simpa using isKnown), inductionHypothesis,
            List.lookup_cons, unequal]
        · rw [List.filter_cons_of_pos (by simpa using isKnown), List.lookup_cons, unequal,
            inductionHypothesis, List.lookup_cons, unequal]

end Members

namespace Dict

variable {α : Type}

theorem lookup_entries (dict : Dict String α) (key : String) :
    dict.entries.lookup key = dict.get? key := by
  rw [get?]
  induction dict.entries with
  | nil => rfl
  | cons head rest inductionHypothesis =>
      rcases head with ⟨other, value⟩
      rw [List.lookup_cons]
      by_cases same : key = other
      · subst same
        simp
      · have unequal : (key == other) = false := beq_false_of_ne same
        rw [unequal, List.find?_cons_of_neg (by simpa using same)]
        exact inductionHypothesis

theorem nodup_keys {κ : Type} [Ord κ] [Std.ReflOrd κ] (dict : Dict κ α) :
    (dict.entries.map Prod.fst).Nodup := by
  refine List.pairwise_map.2 (dict.ascending.imp fun before same => ?_)
  rw [same, Std.ReflOrd.compare_self] at before
  cases before

theorem nodup_names_entries (dict : Dict String α) : (Members.names dict.entries).Nodup :=
  dict.nodup_keys

/-- The dictionary of members of distinct names answers as the members do. -/
theorem get?_ofList {members : Members α} (distinct : members.names.Nodup) (key : String) :
    (ofList members).get? key = members.lookup key := by
  have step : ∀ (rest : Members α) (dict : Dict String α), rest.names.Nodup →
      (rest.foldl (fun dict entry => dict.insert entry.1 entry.2) dict).get? key =
        (rest.lookup key).or (dict.get? key) := by
    intro rest
    induction rest with
    | nil => exact fun _ _ => rfl
    | cons head rest inductionHypothesis =>
        intro dict distinct
        rcases head with ⟨name, value⟩
        have parts := List.nodup_cons.1 distinct
        rw [List.foldl_cons, inductionHypothesis _ parts.2, List.lookup_cons]
        by_cases same : key = name
        · subst same
          rw [get?_insert_self, Members.lookup_eq_none_iff_notMem.2 parts.1, beq_self_eq_true]
          rfl
        · rw [get?_insert_of_ne _ _ same, beq_false_of_ne same]
  rw [ofList, step members empty distinct, get?_empty, Option.or_none]

theorem ofList_entries (dict : Dict String α) : ofList dict.entries = dict :=
  ext_get? fun key => by rw [get?_ofList (nodup_names_entries dict), lookup_entries]

/-! ## Entries and what is inserted -/

section Insertion

variable {κ : Type} [Ord κ] [Std.TransOrd κ] [Std.LawfulEqOrd κ]

/-- Every entry of a dictionary that is made from a list is in the list. -/
theorem mem_of_mem_ofList {entries : List (κ × α)} {entry : κ × α}
    (here : entry ∈ (ofList entries).entries) : entry ∈ entries := by
  induction entries using List.reverseRecOn with
  | nil => exact here
  | append_singleton earlier last inductionHypothesis =>
      rw [ofList, List.foldl_concat] at here
      rcases mem_insertEntry here with rfl | before
      · exact List.mem_append_right _ List.mem_cons_self
      · exact List.mem_append_left _ (inductionHypothesis before)

/-- What is kept anyway can be inserted again. -/
theorem insert_of_get? {dict : Dict κ α} {key : κ} {value : α}
    (kept : dict.get? key = some value) : dict.insert key value = dict := by
  refine ext_get? fun other => ?_
  by_cases same : other = key
  · rw [same, get?_insert_self, kept]
  · rw [get?_insert_of_ne dict value same]

omit [Std.TransOrd κ] in
/-- An entry of a new key goes between two others, which stay as they are. -/
theorem exists_insertEntry_split {key : κ} (value : α) {entries : List (κ × α)}
    (fresh : ∀ entry ∈ entries, entry.1 ≠ key) :
    ∃ front back, entries = front ++ back ∧
      insertEntry key value entries = front ++ (key, value) :: back := by
  induction entries with
  | nil => exact ⟨[], [], rfl, rfl⟩
  | cons head rest inductionHypothesis =>
      rcases head with ⟨other, old⟩
      have apart := List.forall_mem_cons.1 fresh
      rw [insertEntry]
      split
      next => exact ⟨[], (other, old) :: rest, rfl, rfl⟩
      next same => exact absurd (Std.LawfulEqCmp.eq_of_compare same).symm apart.1
      next =>
        rcases inductionHypothesis apart.2 with ⟨front, back, split, inserted⟩
        exact ⟨(other, old) :: front, back, by rw [split, List.cons_append],
          by rw [inserted, List.cons_append]⟩

theorem exists_insert_split {dict : Dict κ α} {key : κ} (value : α)
    (free : dict.get? key = none) :
    ∃ front back, dict.entries = front ++ back ∧
      (dict.insert key value).entries = front ++ (key, value) :: back := by
  refine exists_insertEntry_split value fun (other, old) here same => ?_
  subst same
  rw [(mem_entries_iff dict other old).1 here] at free
  cases free

theorem perm_insert {dict : Dict κ α} {key : κ} (value : α) (free : dict.get? key = none) :
    (dict.insert key value).entries.Perm ((key, value) :: dict.entries) := by
  rcases exists_insert_split value free with ⟨front, back, split, inserted⟩
  rw [split, inserted]
  exact List.perm_middle

end Insertion

end Dict
end ContainerBuild
