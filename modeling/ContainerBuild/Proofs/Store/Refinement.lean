import ContainerBuild.Proofs.Json.Members
import ContainerBuild.Proofs.Record.Lifecycle
import ContainerBuild.Store
import Mathlib.Algebra.BigOperators.Group.Multiset.Basic
import Mathlib.Algebra.Ring.Nat
import Mathlib.Data.List.Infix
import Mathlib.Order.Compare

namespace ContainerBuild

/-!
# A store is a finite map

What an operation has to answer is said of a map from keys to records, without the list that a
store keeps (`Specified`).  A store answers as the map of its look-ups does, and its look-ups
after an operation are the map that the operation has to leave (`specified_perform`).

A record that is stored stays under its key and only moves along the lifecycle, so what has been
under a key, from its creation on, is a path of the lifecycle that ends with a terminal phase.
Together with the keys being those of the records, this holds after all sequences of operations
(`behaved_after`).
-/

/-- Keys ascend by namespace, and by name within one. -/
theorem BuildKey.compare_eq_lt_iff {earlier later : BuildKey} :
    compare earlier later = .lt ↔ earlier.nameSpace < later.nameSpace ∨
      earlier.nameSpace = later.nameSpace ∧ earlier.name < later.name := by
  have texts {first second : String} : compare first second = .lt ↔ first < second :=
    compareOfLessAndEq_eq_lt
  change (compare earlier.nameSpace later.nameSpace).then
    (compare earlier.name later.name) = .lt ↔ _
  rw [Ordering.then_eq_lt, texts, texts, Std.LawfulEqCmp.compare_eq_iff_eq]

namespace Store

/-! ## Operations -/

/-- An operation on a store.  A move comes with what the clock shows. -/
inductive Operation where
  | create (record : Record)
  | get (key : BuildKey)
  | transition (key : BuildKey) (target : Phase) (instant : Instant)
  | list (nameSpace : Option String)
  | counts

/-- What an operation answers. -/
inductive Reply where
  | created (key : BuildKey)
  | found (record? : Option Record)
  | moved (record : Record)
  | listed (entries : List (BuildKey × Record))
  | counted (counts : Dict String Nat)
  | refused (error : StoreError)

/-- What an operation answers, and the store after it; one that is refused leaves the store as it
was. -/
def perform (store : Store) : Operation → Reply × Store
  | .create record =>
      match store.create record with
      | .ok (key, next) => (.created key, next)
      | .error error => (.refused error, store)
  | .get key => (.found (store.get? key), store)
  | .transition key target instant =>
      match store.transition key target instant with
      | .ok (moved, next) => (.moved moved, next)
      | .error error => (.refused error, store)
  | .list nameSpace => (.listed (store.list nameSpace), store)
  | .counts => (.counted store.counts, store)

/-- The store after operations on an empty one. -/
def after (operations : List Operation) : Store :=
  operations.foldl (fun store operation => (store.perform operation).2) empty

theorem after_concat (operations : List Operation) (operation : Operation) :
    after (operations ++ [operation]) = ((after operations).perform operation).2 :=
  List.foldl_concat _ _ _ _

/-! ## What operations have to do -/

/-- The records under all keys. -/
abbrev View := BuildKey → Option Record

/-- One record is another whose build has moved: along an edge of the lifecycle, and with nothing
changed but its phase and its times. -/
structure MovedTo (target : Phase) (record moved : Record) : Prop where
  edge : record.phase.LeadsTo target
  phase : moved.phase = target
  rest : ∃ started completed duration, moved = { record with status := { record.status with
    phase := target, started := started, completed := completed, duration := duration } }

/-- The entries of a view that a namespace has, or all, by ascending key. -/
structure Lists (view : View) (nameSpace : Option String) (entries : List (BuildKey × Record)) :
    Prop where
  ascending : entries.Pairwise fun earlier later =>
    earlier.1.nameSpace < later.1.nameSpace ∨
      earlier.1.nameSpace = later.1.nameSpace ∧ earlier.1.name < later.1.name
  mem_iff : ∀ key record, (key, record) ∈ entries ↔
    view key = some record ∧ ∀ wanted ∈ nameSpace, key.nameSpace = wanted

/-- How many of some entries are in each phase, without the phases that none is in. -/
structure Counts (entries : List (BuildKey × Record)) (counts : Dict String Nat) : Prop where
  get?_eq : ∀ name, counts.get? name =
    let count := entries.countP fun entry => entry.2.phase.name = name
    if count = 0 then none else some count
  sum_eq : (counts.entries.map Prod.snd).sum = entries.length

/-- What an operation has to answer by a view of the records, and the view after it. -/
inductive Specified (view : View) : Operation → Reply → View → Prop
  | nameless {record : Record} (nameless : record.metadata.name = none) :
      Specified view (.create record) (.refused .unnamed) view
  | taken {record old : Record} {key : BuildKey} (keyed : record.key? = some key)
      (there : view key = some old) :
      Specified view (.create record) (.refused (.alreadyExists key)) view
  | created {record : Record} {key : BuildKey} (keyed : record.key? = some key)
      (free : view key = none) :
      Specified view (.create record) (.created key) (Function.update view key (some record))
  | found (key : BuildKey) : Specified view (.get key) (.found (view key)) view
  | absent {key : BuildKey} (target : Phase) (instant : Instant) (free : view key = none) :
      Specified view (.transition key target instant) (.refused (.notFound key)) view
  | rejected {key : BuildKey} {record : Record} {target : Phase} {instant : Instant}
      {fault : Record.TransitionError} (there : view key = some record)
      (noEdge : ¬ record.phase.LeadsTo target)
      (rejected : record.transition target instant = .error fault) :
      Specified view (.transition key target instant) (.refused (.transition fault)) view
  | moved {key : BuildKey} {record moved : Record} {target : Phase} {instant : Instant}
      (there : view key = some record) (movedTo : MovedTo target record moved)
      (accepted : record.transition target instant = .ok moved) :
      Specified view (.transition key target instant) (.moved moved)
        (Function.update view key (some moved))
  | listed {nameSpace : Option String} {entries : List (BuildKey × Record)}
      (lists : Lists view nameSpace entries) :
      Specified view (.list nameSpace) (.listed entries) view
  | counted {entries : List (BuildKey × Record)} {counts : Dict String Nat}
      (lists : Lists view none entries) (each : Counts entries counts) :
      Specified view .counts (.counted counts) view

/-! ## What they do -/

variable {store : Store}

theorem get?_insert (records : Dict BuildKey Record) (key : BuildKey) (record : Record) :
    (Store.mk (records.insert key record)).get? =
      Function.update (Store.mk records).get? key (some record) := by
  funext other
  by_cases same : other = key
  · subst same
    rw [Function.update_self]
    exact Dict.get?_insert_self records other record
  · rw [Function.update_of_ne same]
    exact Dict.get?_insert_of_ne records record same

theorem specified_create (record : Record) : Specified store.get? (.create record)
    (store.perform (.create record)).1 (store.perform (.create record)).2.get? := by
  rw [perform, create]
  cases keyed : record.key? with
  | none => exact .nameless (Option.map_eq_none_iff.1 keyed)
  | some key =>
      by_cases there : store.records.contains key = true
      · simp only [if_pos there]
        rcases Option.isSome_iff_exists.1 there with ⟨old, found⟩
        exact .taken keyed found
      · simp only [if_neg there]
        rw [get?_insert]
        exact .created keyed (Option.not_isSome_iff_eq_none.1 there)

/-- Asking for an edge of the lifecycle moves the build along it, and asking for anything else
is rejected. -/
theorem transition_cases (record : Record) (target : Phase) (instant : Instant) :
    (∃ fault, record.transition target instant = .error fault) ∧ ¬ record.phase.LeadsTo target ∨
    ∃ moved, record.transition target instant = .ok moved ∧ MovedTo target record moved := by
  rw [Record.transition]
  by_cases terminal : record.phase.isTerminal = true
  · rw [if_pos terminal]
    exact Or.inl ⟨⟨_, rfl⟩, Phase.not_leadsTo_of_isTerminal terminal⟩
  rw [if_neg terminal]
  by_cases allowed : record.phase.canBecome target = true
  · rw [if_pos allowed]
    refine Or.inr ⟨_, rfl, Phase.canBecome_iff.1 allowed, Record.movedStatus_phase _ _ _, ?_⟩
    simp only [Record.movedStatus]
    split
    · exact ⟨_, _, _, rfl⟩
    · exact ⟨_, record.status.completed, record.status.duration, rfl⟩
  · rw [if_neg allowed]
    exact Or.inl ⟨⟨_, rfl⟩, mt Phase.canBecome_iff.2 allowed⟩

theorem specified_transition (key : BuildKey) (target : Phase) (instant : Instant) :
    Specified store.get? (.transition key target instant)
      (store.perform (.transition key target instant)).1
      (store.perform (.transition key target instant)).2.get? := by
  rw [perform, transition]
  cases there : store.get? key with
  | none => exact .absent target instant there
  | some record =>
      rcases transition_cases record target instant with
        ⟨⟨fault, rejected⟩, noEdge⟩ | ⟨moved, accepted, movedTo⟩
      · simp only [rejected]
        exact .rejected there noEdge rejected
      · simp only [accepted]
        rw [get?_insert]
        exact .moved there movedTo accepted

theorem lists_list (nameSpace : Option String) :
    Lists store.get? nameSpace (store.list nameSpace) := by
  constructor
  · refine (store.records.ascending.sublist List.filter_sublist).imp ?_
    exact fun before => BuildKey.compare_eq_lt_iff.1 before
  · intro key record
    rw [list, List.mem_filter, Dict.mem_entries_iff]
    refine and_congr_right fun _ => ?_
    cases nameSpace with
    | none => simp
    | some wanted =>
        rw [Option.all_some, beq_iff_eq]
        exact ⟨fun same _ here => same ▸ Option.some.inj here, fun all => (all wanted rfl).symm⟩

theorem get?_tallied (names : List String) (name : String) :
    (names.foldl tally .empty).get? name =
      if names.count name = 0 then none else some (names.count name) := by
  induction names using List.reverseRecOn with
  | nil => rfl
  | append_singleton earlier last inductionHypothesis =>
      rw [List.foldl_concat, tally]
      by_cases same : name = last
      · subst same
        rw [Dict.get?_insert_self, inductionHypothesis, List.count_append,
          List.count_singleton_self, if_neg (Nat.succ_ne_zero _)]
        split
        next none => rw [none, Option.getD_none]
        next => rw [Option.getD_some]
      · rw [Dict.get?_insert_of_ne _ _ same, inductionHypothesis, List.count_append,
          List.count_singleton, beq_false_of_ne (Ne.symm same), if_neg Bool.false_ne_true,
          Nat.add_zero]

theorem sum_tallied (names : List String) :
    ((names.foldl tally .empty).entries.map Prod.snd).sum = names.length := by
  have distinct : (names.foldl tally .empty).entries.Nodup :=
    List.Nodup.of_map Prod.fst (Dict.nodup_names_entries _)
  have perm : (names.foldl tally .empty).entries.Perm
      (names.dedup.map fun name => (name, names.count name)) := by
    refine (List.perm_ext_iff_of_nodup distinct ?_).2 fun (name, count) => ?_
    · exact names.nodup_dedup.map fun _ _ same => (Prod.mk.inj same).1
    · rw [Dict.mem_entries_iff, get?_tallied]
      simp only [List.mem_map, List.mem_dedup, Prod.mk.injEq]
      constructor
      · intro counted
        split at counted
        · cases counted
        next some => exact ⟨name, List.count_pos_iff.1 (Nat.pos_of_ne_zero some), rfl,
            Option.some.inj counted⟩
      · rintro ⟨_, here, rfl, rfl⟩
        rw [if_neg (Nat.ne_of_gt (List.count_pos_iff.2 here))]
  rw [(perm.map Prod.snd).sum_eq, List.map_map]
  exact List.sum_map_count_dedup_eq_length names

theorem counts_counts : Counts store.records.entries store.counts := by
  constructor
  · intro name
    rw [counts, get?_tallied, List.count, List.countP_map]
    rfl
  · rw [counts, sum_tallied, List.length_map]

theorem list_none : store.list none = store.records.entries :=
  List.filter_eq_self.2 fun _ _ => rfl

/-- A store answers as its view does, and leaves the view that the operation has to leave. -/
theorem specified_perform (store : Store) (operation : Operation) :
    Specified store.get? operation (store.perform operation).1
      (store.perform operation).2.get? := by
  cases operation with
  | create record => exact specified_create record
  | get key => exact .found key
  | transition key target instant => exact specified_transition key target instant
  | list nameSpace => exact .listed (lists_list nameSpace)
  | counts => exact .counted (list_none ▸ lists_list none) counts_counts

/-- A refused operation leaves the whole store as it was. -/
theorem perform_of_refused {operation : Operation} {error : StoreError}
    (refused : (store.perform operation).1 = .refused error) :
    (store.perform operation).2 = store := by
  cases operation with
  | create record =>
      rw [perform] at refused ⊢
      split at refused
      · cases refused
      · rfl
  | transition key target instant =>
      rw [perform] at refused ⊢
      split at refused
      · cases refused
      · rfl
  | _ => rfl

/-! ## Runs -/

section Runs

variable {operations : List Operation} {operation : Operation} {key : BuildKey}

/-- What is under a key stays there, is created, or moves. -/
theorem get?_perform_cases (store : Store) (operation : Operation) (key : BuildKey) :
    (store.perform operation).2.get? key = store.get? key ∨
    (∃ record, operation = .create record ∧ record.key? = some key ∧ store.get? key = none ∧
      (store.perform operation).2.get? key = some record) ∨
    ∃ record target moved, store.get? key = some record ∧ MovedTo target record moved ∧
      (store.perform operation).2.get? key = some moved := by
  have specified := specified_perform store operation
  generalize (store.perform operation).1 = reply at specified
  generalize (store.perform operation).2.get? = view at specified ⊢
  cases specified with
  | @created record own keyed free =>
      by_cases same : key = own
      · subst same
        exact Or.inr (Or.inl ⟨record, rfl, keyed, free, Function.update_self _ _ _⟩)
      · exact Or.inl (Function.update_of_ne same _ _)
  | @moved own record moved target instant there movedTo accepted =>
      by_cases same : key = own
      · subst same
        exact Or.inr (Or.inr ⟨record, target, moved, there, movedTo, Function.update_self _ _ _⟩)
      · exact Or.inl (Function.update_of_ne same _ _)
  | _ => exact Or.inl rfl

/-- A move takes no record to another key. -/
theorem MovedTo.key?_eq {target : Phase} {record moved : Record}
    (movedTo : MovedTo target record moved) : moved.key? = record.key? := by
  rcases movedTo.rest with ⟨_, _, _, rfl⟩
  rfl

theorem key?_of_get? {record : Record} (there : (after operations).get? key = some record) :
    record.key? = some key := by
  induction operations using List.reverseRecOn generalizing record with
  | nil => cases there
  | append_singleton earlier operation inductionHypothesis =>
      rw [after_concat] at there
      rcases get?_perform_cases (after earlier) operation key with
        same | ⟨created, -, keyed, -, now⟩ | ⟨before, target, moved, was, movedTo, now⟩
      · exact inductionHypothesis (same ▸ there)
      · rw [now] at there
        exact Option.some.inj there ▸ keyed
      · rw [now] at there
        rw [← Option.some.inj there, movedTo.key?_eq]
        exact inductionHypothesis was

/-- A terminal record stays under its key as it is. -/
theorem get?_of_isTerminal {record : Record} (there : (after operations).get? key = some record)
    (terminal : record.phase.isTerminal = true) (more : List Operation) :
    (after (operations ++ more)).get? key = some record := by
  induction more using List.reverseRecOn with
  | nil => rwa [List.append_nil]
  | append_singleton earlier operation inductionHypothesis =>
      rw [← List.append_assoc, after_concat]
      rcases get?_perform_cases (after (operations ++ earlier)) operation key with
        same | ⟨created, -, -, free, -⟩ | ⟨before, target, moved, was, movedTo, -⟩
      · rw [same, inductionHypothesis]
      · rw [inductionHypothesis] at free
        cases free
      · rw [inductionHypothesis] at was
        rw [← Option.some.inj was] at movedTo
        exact absurd movedTo.edge (Phase.not_leadsTo_of_isTerminal terminal)

/-- The records that have been under a key, one for each moment since its creation. -/
def life (key : BuildKey) (operations : List Operation) : List Record :=
  operations.inits.filterMap fun earlier => (after earlier).get? key

theorem life_concat (key : BuildKey) (operations : List Operation) (operation : Operation) :
    life key (operations ++ [operation]) =
      life key operations ++ ((after (operations ++ [operation])).get? key).toList := by
  have inits : (operations ++ [operation]).inits =
      operations.inits ++ [operations ++ [operation]] := by
    rw [List.inits_append]
    rfl
  rw [life, inits, List.filterMap_append, life, List.filterMap_cons, List.filterMap_nil]
  cases (after (operations ++ [operation])).get? key <;> rfl

/-- The life of a key ends with what is under the key. -/
theorem getLast?_life (key : BuildKey) (operations : List Operation) :
    (life key operations).getLast? = (after operations).get? key := by
  induction operations using List.reverseRecOn with
  | nil => rfl
  | append_singleton earlier operation inductionHypothesis =>
      rw [life_concat, List.getLast?_append]
      cases found : (after (earlier ++ [operation])).get? key with
      | some record => rfl
      | none =>
          rw [Option.toList_none, List.getLast?_nil, Option.none_or, inductionHypothesis]
          rw [after_concat] at found
          rcases get?_perform_cases (after earlier) operation key with
            same | ⟨created, -, -, -, now⟩ | ⟨before, target, moved, -, -, now⟩
          · rw [← same, found]
          · rw [found] at now
            cases now
          · rw [found] at now
            cases now

/-- The life of a key begins with a record that was created under it. -/
theorem head?_life (key : BuildKey) (operations : List Operation) :
    ∀ first ∈ (life key operations).head?,
      .create first ∈ operations ∧ first.key? = some key := by
  induction operations using List.reverseRecOn with
  | nil => exact fun _ here => (by cases here)
  | append_singleton earlier operation inductionHypothesis =>
      intro first here
      rw [life_concat, List.head?_append] at here
      cases lived : (life key earlier).head? with
      | some old =>
          rw [lived] at here inductionHypothesis
          have born := inductionHypothesis first here
          exact ⟨List.mem_append_left _ born.1, born.2⟩
      | none =>
          -- Nothing has been under the key, so the operation has to be what put the record there.
          have unborn : (after earlier).get? key = none := by
            rw [← getLast?_life, List.head?_eq_none_iff.1 lived]
            rfl
          rw [lived, Option.none_or, after_concat] at here
          rcases get?_perform_cases (after earlier) operation key with
            same | ⟨created, rfl, keyed, -, now⟩ | ⟨before, target, moved, was, -, -⟩
          · rw [same, unborn] at here
            cases here
          · rw [now] at here
            rw [← Option.some.inj here]
            exact ⟨List.mem_append_right _ List.mem_cons_self, keyed⟩
          · rw [unborn] at was
            cases was

/-- The life of a key is a path of the lifecycle, with rests. -/
theorem isChain_life (key : BuildKey) (operations : List Operation) :
    (life key operations).IsChain fun before next =>
      next = before ∨ ∃ target, MovedTo target before next := by
  induction operations using List.reverseRecOn with
  | nil => exact List.isChain_nil
  | append_singleton earlier operation inductionHypothesis =>
      rw [life_concat, List.isChain_append, getLast?_life]
      refine ⟨inductionHypothesis, ?_, fun before was next here => ?_⟩
      · cases (after (earlier ++ [operation])).get? key with
        | none => exact List.isChain_nil
        | some record => exact List.isChain_singleton record
      · rw [after_concat] at here
        rcases get?_perform_cases (after earlier) operation key with
          same | ⟨created, -, -, free, -⟩ | ⟨record, target, moved, there, movedTo, now⟩
        · rw [same, was] at here
          exact Or.inl (Option.some.inj here).symm
        · rw [free] at was
          cases was
        · rw [there] at was
          rw [now] at here
          rw [← Option.some.inj was, ← Option.some.inj here]
          exact Or.inr ⟨target, movedTo⟩

end Runs

/-- What holds after operations on an empty store. -/
structure Behaved (operations : List Operation) : Prop where
  /-- Every operation on the way answers by the view of the store before it, and leaves the view
  that it has to leave. -/
  specified : ∀ earlier operation, earlier ++ [operation] <+: operations →
    Specified (after earlier).get? operation ((after earlier).perform operation).1
      (after (earlier ++ [operation])).get?
  refused : ∀ earlier operation error, earlier ++ [operation] <+: operations →
    ((after earlier).perform operation).1 = .refused error →
      after (earlier ++ [operation]) = after earlier
  keyed : ∀ entry ∈ (after operations).records.entries, entry.2.key? = some entry.1
  /-- What has been under a key since its creation is a path of the lifecycle, on which only the
  phase and the times change. -/
  path : ∀ key,
    (∀ first ∈ (life key operations).head?,
      .create first ∈ operations ∧ first.key? = some key) ∧
    (life key operations).IsChain (fun before next =>
      next = before ∨ ∃ target, MovedTo target before next) ∧
    (life key operations).getLast? = (after operations).get? key
  frozen : ∀ earlier, earlier <+: operations → ∀ key record,
    (after earlier).get? key = some record → record.phase.isTerminal = true →
      (after operations).get? key = some record
  /-- The entries are those of the view, without loss, and ascend strictly, without repetition. -/
  lists : Lists (after operations).get? none ((after operations).list none)
  list_some : ∀ nameSpace, (after operations).list (some nameSpace) =
    ((after operations).list none).filter fun entry => entry.1.nameSpace = nameSpace
  counts : Counts ((after operations).list none) (after operations).counts

/-- A store behaves as a finite map whose records only move along the lifecycle, whatever is asked
of it. -/
theorem behaved_after (operations : List Operation) : Behaved operations where
  specified := fun earlier operation _ => by
    rw [after_concat]
    exact specified_perform (after earlier) operation
  refused := fun earlier operation error _ refused => by
    rw [after_concat]
    exact perform_of_refused refused
  keyed := fun (key, record) here => key?_of_get? ((Dict.mem_entries_iff _ key record).1 here)
  path := fun key =>
    ⟨head?_life key operations, isChain_life key operations, getLast?_life key operations⟩
  frozen := fun earlier before key record there terminal => by
    rcases before with ⟨more, rfl⟩
    exact get?_of_isTerminal there terminal more
  lists := lists_list none
  list_some := fun nameSpace => by
    rw [list_none, list]
    refine List.filter_congr fun entry _ => ?_
    rw [Option.all_some, beq_eq_decide, decide_eq_decide]
    exact eq_comm
  counts := list_none ▸ counts_counts

end Store
end ContainerBuild
