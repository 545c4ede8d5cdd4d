import ContainerBuild.Command.Run
import ContainerBuild.Files.Directory
import ContainerBuild.Proofs.Command.Arguments
import ContainerBuild.Proofs.Files.Running
import ContainerBuild.Proofs.Store.Refinement
import Mathlib.Data.List.Sort

namespace ContainerBuild

/-!
# The summary of several files

A summary stores the records of files one after another, stops at the first that cannot be stored,
and counts what is stored.  Which file is the first depends on the order of the files, but what is
stored in the end does not (`perm_of_stored`), and neither does whether all can be stored
(`exists_stored`).

What a summary has to come to is therefore said of the records alone (`Summarizes`), and no order
of the files can be told from it (`Summarizes.orderless`).
-/

/-- A record is stored if it has a key, and nothing is stored under that. -/
theorem Store.create_ok_iff {store after : Store} {record : Record} {key : BuildKey} :
    store.create record = .ok (key, after) ↔ record.key? = some key ∧ store.get? key = none ∧
      after = ⟨store.records.insert key record⟩ := by
  rw [create]
  cases record.key? with
  | none => simp
  | some own =>
      have free : store.records.contains own = false ↔ store.get? own = none := by
        rw [Dict.contains, Option.isSome_eq_false_iff, Option.isNone_iff_eq_none, get?]
      by_cases taken : store.records.contains own = true
      · simp only [if_pos taken, reduceCtorEq, false_iff]
        rintro ⟨same, none, -⟩
        rw [← Option.some.inj same, ← free, taken] at none
        cases none
      · simp only [if_neg taken, Except.ok.injEq, Prod.mk.injEq, Option.some.injEq]
        constructor
        · rintro ⟨rfl, rfl⟩
          exact ⟨rfl, free.1 (Bool.eq_false_of_not_eq_true taken), rfl⟩
        · rintro ⟨rfl, -, rfl⟩
          exact ⟨rfl, rfl⟩

namespace Command

open Script (FailsOnly)

/-! ## One file -/

/-- The record that a file holds. -/
def Holds (files : Files) (path : String) (record : Record) : Prop :=
  ∃ text, files path = .ok text ∧ Record.decode text = .ok record

theorem ofExcept_ok_iff {α : Type} {files : Files} {result : Except (List String) α} {x : α} :
    (Task.ofExcept result).run.run files = .ok x ↔ result = .ok x := by
  have run : (Task.ofExcept result).run.run files =
      result.mapError fun causes => { causes } := rfl
  rw [run, Except.mapError_ok_iff]

theorem loadText_ok_iff {files : Files} {path text : String} :
    (loadText path).run.run files = .ok text ↔ files path = .ok text := by
  have read : (liftM (Script.readFile path) : Task (Except FileError String)).run.run files =
      .ok (files path) := rfl
  rw [loadText, Script.run_bind_of_ok read, ofExcept_ok_iff, Except.mapError_ok_iff]

theorem load_ok_iff {files : Files} {path : String} {record : Record} :
    (load path).run.run files = .ok record ↔ Holds files path record := by
  simp only [load, Script.run_bind_ok_iff, loadText_ok_iff, ofExcept_ok_iff, decode,
    Except.mapError_ok_iff, Holds]

/-- A file is stored if it holds a record of a key that is free. -/
theorem storeFile_ok_iff {files : Files} {store after : Store} {path : String} :
    (storeFile store path).run.run files = .ok after ↔
      ∃ record key, Holds files path record ∧ record.key? = some key ∧ store.get? key = none ∧
        after = ⟨store.records.insert key record⟩ := by
  simp only [storeFile, Script.run_bind_ok_iff, load_ok_iff, ofExcept_ok_iff,
    Except.mapError_ok_iff]
  constructor
  · rintro ⟨record, held, ⟨key, next⟩, stored, same⟩
    cases same
    exact ⟨record, key, held, Store.create_ok_iff.1 stored⟩
  · rintro ⟨record, key, held, stored⟩
    exact ⟨record, held, _, Store.create_ok_iff.2 stored, rfl⟩

/-! ## All files -/

/-- Entries that have records under their keys. -/
def Keyed (entries : List (BuildKey × Record)) : Prop :=
  ∀ entry ∈ entries, entry.2.key? = some entry.1

section Stored

variable {files : Files} {store : Store} {paths : List String}

/-- What is stored in the end are the records of the files, besides what was stored before. -/
theorem perm_of_stored {after : Store}
    (stored : (paths.foldlM storeFile store).run.run files = .ok after) :
    ∃ entries, List.Forall₂ (Holds files) paths (entries.map Prod.snd) ∧ Keyed entries ∧
      after.records.entries.Perm (entries ++ store.records.entries) := by
  induction paths generalizing store with
  | nil =>
      cases stored
      exact ⟨[], .nil, List.forall_mem_nil _, .refl _⟩
  | cons path rest inductionHypothesis =>
      rw [List.foldlM_cons] at stored
      rcases Script.run_bind_ok stored with ⟨next, first, others⟩
      rcases storeFile_ok_iff.1 first with ⟨record, key, held, keyed, free, rfl⟩
      rcases inductionHypothesis others with ⟨entries, hold, allKeyed, perm⟩
      have inserted := Dict.perm_insert record free
      exact ⟨(key, record) :: entries, .cons held hold, List.forall_mem_cons.2 ⟨keyed, allKeyed⟩,
        perm.trans ((inserted.append_left entries).trans List.perm_middle)⟩

/-- Files are stored if the keys of their records differ from each other and from all before. -/
theorem exists_stored {entries : List (BuildKey × Record)}
    (hold : List.Forall₂ (Holds files) paths (entries.map Prod.snd)) (keyed : Keyed entries)
    (distinct : ((entries ++ store.records.entries).map Prod.fst).Nodup) :
    ∃ after, (paths.foldlM storeFile store).run.run files = .ok after := by
  induction entries generalizing paths store with
  | nil =>
      cases hold
      exact ⟨store, rfl⟩
  | cons entry rest inductionHypothesis =>
      rcases entry with ⟨key, record⟩
      rcases List.forall₂_cons_right_iff.1 hold with ⟨path, others, held, holdOthers, rfl⟩
      have parts := List.forall_mem_cons.1 keyed
      have free : store.get? key = none := by
        cases found : store.get? key with
        | none => rfl
        | some old =>
            have there := (Dict.mem_entries_iff store.records key old).2 found
            have again : key ∈ (rest ++ store.records.entries).map Prod.fst :=
              List.mem_map.2 ⟨_, List.mem_append_right rest there, rfl⟩
            exact absurd again (List.nodup_cons.1 distinct).1
      have inserted := Dict.perm_insert record free
      have first := storeFile_ok_iff.2 ⟨record, key, held, parts.1, free, rfl⟩
      have perm : ((key, record) :: rest ++ store.records.entries).Perm
          (rest ++ (store.records.insert key record).entries) :=
        ((inserted.append_left rest).trans List.perm_middle).symm
      rcases inductionHypothesis holdOthers parts.2 ((perm.map Prod.fst).nodup_iff.1 distinct) with
        ⟨after, stored⟩
      rw [List.foldlM_cons]
      exact ⟨after, (Script.run_bind_of_ok first).trans stored⟩

end Stored

/-! ## What has to be printed -/

/-- The namespace and the name of a record.  A record without a namespace is in the empty one. -/
def place (record : Record) : String × Option String :=
  (record.metadata.nameSpace.getD "", record.metadata.name)

/-- Whether records can be stored together: every one has a name, and no two have the same name in
the same namespace. -/
structure Storable (records : List Record) : Prop where
  named : ∀ record ∈ records, record.metadata.name ≠ none
  distinct : (records.map place).Nodup

/-- How often each of some names occurs, by ascending name. -/
structure Tallies (names : List String) (entries : List (String × Nat)) : Prop where
  ascending : entries.Pairwise fun earlier later => earlier.1 < later.1
  mem_iff : ∀ name count, (name, count) ∈ entries ↔ name ∈ names ∧ count = names.count name

/-- What a summary of files comes to: a success if their records can be stored together, with a
line for every phase, and otherwise a failure that prints nothing. -/
structure Summarizes (files : Files) (paths : List String) (outcome : Outcome) : Prop where
  success_iff : outcome.exitCode = 0 ↔
    ∃ records, List.Forall₂ (Holds files) paths records ∧ Storable records
  printed : ∀ records, List.Forall₂ (Holds files) paths records → outcome.exitCode = 0 →
    ∃ entries, Tallies (records.map fun record => record.phase.name) entries ∧
      (entries.map Prod.snd).sum = paths.length ∧
      outcome.lines = entries.map fun (phase, count) => columns phase (toString count)
  refused : outcome.exitCode ≠ 0 → outcome.exitCode = 1 ∧ outcome.output = ""

/-- Records of one place are those of one key. -/
theorem place_eq_iff {record record' : Record} {key key' : BuildKey}
    (keyed : record.key? = some key) (keyed' : record'.key? = some key') :
    place record = place record' ↔ key = key' := by
  rcases Option.map_eq_some_iff.1 keyed with ⟨name, named, rfl⟩
  rcases Option.map_eq_some_iff.1 keyed' with ⟨name', named', rfl⟩
  rw [place, place, named, named', Prod.mk.injEq, Option.some.injEq, BuildKey.mk.injEq]

theorem storable_iff {records : List Record} : Storable records ↔
    ∃ entries, entries.map Prod.snd = records ∧ Keyed entries ∧ (entries.map Prod.fst).Nodup := by
  constructor
  · intro storable
    have keyed (record : Record) (here : record ∈ records) :
        record.key? = some (record.key?.getD ⟨"", ""⟩) := by
      rcases Option.ne_none_iff_exists'.1 (storable.named record here) with ⟨name, named⟩
      rw [Record.key?, named]
      rfl
    refine ⟨records.map fun record => (record.key?.getD ⟨"", ""⟩, record), ?_, ?_, ?_⟩
    · rw [List.map_map]
      exact List.map_id _
    · exact List.forall_mem_map.2 keyed
    · rw [List.map_map]
      refine List.pairwise_map.2 ((List.pairwise_map.1 storable.distinct).imp_of_mem ?_)
      exact fun {record record'} here here' apart same =>
        apart ((place_eq_iff (keyed record here) (keyed record' here')).2 same)
  · rintro ⟨entries, rfl, keyed, distinct⟩
    constructor
    · refine List.forall_mem_map.2 fun entry here none => ?_
      have keyed := keyed entry here
      rw [Record.key?, none] at keyed
      cases keyed
    · rw [List.map_map]
      refine List.pairwise_map.2 ((List.pairwise_map.1 distinct).imp_of_mem ?_)
      exact fun {entry entry'} here here' apart same =>
        apart ((place_eq_iff (keyed entry here) (keyed entry' here')).1 same)

theorem tallies_counts {store : Store} {names : List String}
    (perm : (store.records.entries.map fun entry => entry.2.phase.name).Perm names) :
    Tallies names store.counts.entries where
  ascending := store.counts.ascending.imp fun before => compareOfLessAndEq_eq_lt.1 before
  mem_iff := fun name count => by
    rw [Dict.mem_entries_iff, Store.counts, Store.get?_tallied, perm.count_eq]
    by_cases here : name ∈ names
    · rw [if_neg (List.count_pos_iff.2 here).ne']
      simp [here, eq_comm]
    · rw [if_pos (List.count_eq_zero.2 here)]
      simp [here]

/-- Names are tallied in one way, whatever their order is. -/
theorem Tallies.unique {names names' : List String} {entries entries' : List (String × Nat)}
    (tallies : Tallies names entries) (tallies' : Tallies names' entries')
    (perm : names.Perm names') : entries = entries' := by
  have irreflexive : Std.Irrefl fun earlier later : String × Nat => earlier.1 < later.1 :=
    ⟨fun entry => String.lt_irrefl entry.1⟩
  refine tallies.ascending.eq_of_mem_iff tallies'.ascending fun (name, count) => ?_
  rw [tallies.mem_iff, tallies'.mem_iff, perm.mem_iff, perm.count_eq]

theorem rightUnique_holds (files : Files) : Relator.RightUnique (Holds files) := by
  rintro path record record' ⟨text, found, decoded⟩ ⟨text', found', decoded'⟩
  rw [found] at found'
  cases found'
  rw [decoded] at decoded'
  exact Except.ok.inj decoded'

theorem Storable.perm {records records' : List Record} (storable : Storable records)
    (perm : records.Perm records') : Storable records' where
  named := fun record here => storable.named record (perm.mem_iff.2 here)
  distinct := (perm.map _).nodup_iff.1 storable.distinct

namespace Summarizes

variable {files : Files} {paths paths' : List String} {outcome outcome' : Outcome}

theorem success_of_perm (summarizes : Summarizes files paths outcome)
    (summarizes' : Summarizes files paths' outcome') (perm : paths.Perm paths')
    (success : outcome.exitCode = 0) : outcome'.exitCode = 0 := by
  rcases summarizes.success_iff.1 success with ⟨records, hold, storable⟩
  rcases List.perm_comp_forall₂ perm.symm hold with ⟨records', hold', same⟩
  exact summarizes'.success_iff.2 ⟨records', hold', storable.perm same.symm⟩

/-- The order of the files makes no difference to what a summary comes to. -/
theorem orderless (summarizes : Summarizes files paths outcome)
    (summarizes' : Summarizes files paths' outcome') (perm : paths.Perm paths') :
    outcome.exitCode = outcome'.exitCode ∧ outcome.output = outcome'.output := by
  by_cases success : outcome.exitCode = 0
  · have success' := summarizes.success_of_perm summarizes' perm success
    rcases summarizes.success_iff.1 success with ⟨records, hold, -⟩
    rcases summarizes'.success_iff.1 success' with ⟨records', hold', -⟩
    have same : records.Perm records' :=
      List.rel_perm_imp (rightUnique_holds files) hold hold' perm
    rcases summarizes.printed records hold success with ⟨entries, tallies, -, lines⟩
    rcases summarizes'.printed records' hold' success' with ⟨entries', tallies', -, lines'⟩
    have entriesSame := tallies.unique tallies' (same.map _)
    exact ⟨success.trans success'.symm, by rw [Outcome.output, Outcome.output, lines, lines',
      entriesSame]⟩
  · have failure' : outcome'.exitCode ≠ 0 := fun success' =>
      success (summarizes'.success_of_perm summarizes perm.symm success')
    have refused := summarizes.refused success
    have refused' := summarizes'.refused failure'
    exact ⟨refused.1.trans refused'.1.symm, refused.2.trans refused'.2.symm⟩

end Summarizes

/-! ## What is printed -/

/-- Storing and counting print nothing before they fail. -/
theorem runSummary_failsOnly (paths : List String) :
    FailsOnly (fun failure => failure.printed = []) (runSummary paths) := by
  have ofExcept {α : Type} (result : Except (List String) α) :
      FailsOnly (fun failure : Failure => failure.printed = []) (Task.ofExcept result) := by
    intro files failure failed
    cases result with
    | error causes => exact Except.error.inj failed ▸ rfl
    | ok value => cases failed
  have load (path : String) : FailsOnly (fun failure => failure.printed = []) (load path) :=
    .bind (.bind (.readFile path) fun _ => ofExcept _) fun _ => ofExcept _
  exact .bind (.foldlM (fun store path => .bind (load path) fun record =>
    .bind (ofExcept _) fun _ => .pure _) paths Store.empty) fun _ => .pure _

/-- What becomes of a command that has run. -/
def Outcome.ofResult : Except Failure (List String) → Outcome
  | .ok lines => .success lines
  | .error report => .failure report

theorem answer_of_parse {arguments : List String} {command : Command}
    (asked : Request.parse arguments = some (.command command)) (files : Files)
    (fallback : Option String) :
    (answer arguments fallback).run files = .ofResult ((command.run fallback).run.run files) := by
  simp only [answer, asked, Script.run_bind]
  cases (command.run fallback).run.run files <;> rfl

theorem summarizes_runSummary (files : Files) (paths : List String) :
    Summarizes files paths (.ofResult ((runSummary paths).run.run files)) := by
  cases outcome : (runSummary paths).run.run files with
  | ok lines =>
      rcases Script.run_bind_ok outcome with ⟨after, stored, printed⟩
      cases printed
      rcases perm_of_stored stored with ⟨entries, hold, keyed, perm⟩
      have same : after.records.entries.Perm entries :=
        perm.trans (.of_eq (List.append_nil entries))
      have distinct : (entries.map Prod.fst).Nodup :=
        (same.map Prod.fst).nodup_iff.1 after.records.nodup_keys
      refine ⟨iff_of_true rfl ⟨_, hold, storable_iff.2 ⟨entries, rfl, keyed, distinct⟩⟩, ?_,
        fun failure => absurd rfl failure⟩
      intro records hold' _
      have records_eq : entries.map Prod.snd = records :=
        List.right_unique_forall₂' (rightUnique_holds files) hold hold'
      have phases : (after.records.entries.map fun entry => entry.2.phase.name).Perm
          (records.map fun record => record.phase.name) := by
        rw [← records_eq, List.map_map]
        exact same.map _
      refine ⟨after.counts.entries, tallies_counts phases, ?_, rfl⟩
      rw [Store.counts, Store.sum_tallied, phases.length_eq, List.length_map, hold'.length_eq]
  | error report =>
      have silent := runSummary_failsOnly paths files report outcome
      refine ⟨iff_of_false Nat.one_ne_zero ?_, fun _ _ success => absurd success Nat.one_ne_zero,
        fun _ => ⟨rfl, ?_⟩⟩
      · rintro ⟨records, hold, storable⟩
        rcases storable_iff.1 storable with ⟨entries, rfl, keyed, distinct⟩
        have apart : ((entries ++ Store.empty.records.entries).map Prod.fst).Nodup := by
          rwa [show Store.empty.records.entries = [] from rfl, List.append_nil]
        rcases exists_stored hold keyed apart with ⟨after, stored⟩
        have done : (runSummary paths).run.run files = .ok _ :=
          (Script.run_bind_of_ok stored).trans rfl
        rw [outcome] at done
        cases done
      · change String.join (report.printed.map (· ++ "\n")) = ""
        rw [silent]
        rfl

/-! ## The command -/

/-- What is printed of some files and how the program ends depend on the records that the files
hold, and not on the order of the files.  A summary of no files, or with an empty path among them,
is refused before any file is read.  However a summary is asked for, it comes to the same. -/
theorem summary_orderless {paths paths' : List String} (perm : paths.Perm paths') (files : Files)
    (fallback : Option String) :
    let outcome := (answer ("summary" :: "--" :: paths) fallback).run files
    let outcome' := (answer ("summary" :: "--" :: paths') fallback).run files
    (outcome.exitCode = outcome'.exitCode ∧ outcome.output = outcome'.output) ∧
      (paths ≠ [] → "" ∉ paths → Summarizes files paths outcome) ∧
      (paths = [] ∨ "" ∈ paths → outcome = .misuse) ∧
      (∀ arguments, Request.parse arguments = some (.command (.summary paths)) →
        (answer arguments fallback).run files = outcome) ∧
      ((∀ path ∈ paths, Arguments.isValue path = true) →
        (answer ("summary" :: paths) fallback).run files = outcome) := by
  have asked {paths : List String} (fits : ¬ (paths = [] ∨ "" ∈ paths)) :
      Request.parse ("summary" :: "--" :: paths) = some (.command (.summary paths)) :=
    (parse_behindDashes paths).trans (if_neg fits)
  have summarizes {paths : List String} (fits : ¬ (paths = [] ∨ "" ∈ paths)) :
      Summarizes files paths ((answer ("summary" :: "--" :: paths) fallback).run files) := by
    rw [answer_of_parse (asked fits)]
    exact summarizes_runSummary files paths
  have refused {paths : List String} (misfits : paths = [] ∨ "" ∈ paths) :
      (answer ("summary" :: "--" :: paths) fallback).run files = .misuse := by
    have none : Request.parse ("summary" :: "--" :: paths) = none :=
      (parse_behindDashes paths).trans (if_pos misfits)
    simp only [answer, none]
    rfl
  have same_iff : (paths = [] ∨ "" ∈ paths) ↔ (paths' = [] ∨ "" ∈ paths') := by
    rw [perm.mem_iff, ← List.length_eq_zero_iff, perm.length_eq, List.length_eq_zero_iff]
  refine ⟨?_, fun nonempty named => summarizes (not_or.2 ⟨nonempty, named⟩), refused, ?_, ?_⟩
  · by_cases misfits : paths = [] ∨ "" ∈ paths
    · rw [refused misfits, refused (same_iff.1 misfits)]
      exact ⟨rfl, rfl⟩
    · exact (summarizes misfits).orderless (summarizes (mt same_iff.2 misfits)) perm
  · intro arguments requested
    have fits := files_of_parse requested
    simp only [answer, requested, asked (not_or.2 fits)]
  · intro values
    simp only [answer, parse_ofValues values, parse_behindDashes]

/-- The record of a build with a name, in a phase. -/
def buildText (name phase : String) : String :=
  "\x7b\"apiVersion\":\"v1\",\"kind\":\"Build\",\"metadata\":\x7b\"name\":\"" ++ name ++
  "\"\x7d,\"spec\":\x7b\"strategy\":\x7b\"type\":\"Custom\"\x7d\x7d," ++
  "\"status\":\x7b\"phase\":\"" ++ phase ++ "\"\x7d\x7d"

/-- The records of three builds. -/
def threeBuilds : Files :=
  (Directory.ofPaths [("a.json", buildText "a" "Running"), ("b.json", buildText "b" "Failed"),
    ("c.json", buildText "c" "Running")]).read

theorem summary_orderless_threeBuilds :
    (answer ["summary", "a.json", "b.json", "c.json"] none).run threeBuilds =
        .success ["Failed       1", "Running      2"] ∧
      ((answer ["summary", "--", "c.json", "a.json", "b.json"] none).run threeBuilds).output =
        "Failed       1\nRunning      2\n" := by
  have forwards : (answer ["summary", "a.json", "b.json", "c.json"] none).run threeBuilds =
      .success ["Failed       1", "Running      2"] := by decide +kernel
  have perm : ["a.json", "b.json", "c.json"].Perm ["c.json", "a.json", "b.json"] := by decide
  rcases summary_orderless perm threeBuilds none with ⟨⟨-, output⟩, -, -, -, ofValues⟩
  refine ⟨forwards, output.symm.trans ?_⟩
  rw [← ofValues (by decide), forwards]
  rfl

/-- A summary of nothing is refused, although nothing is there that cannot be stored. -/
theorem summary_of_nothing :
    ((answer ["summary"] none).run fun _ => .error .notFound).exitCode = 2 ∧
      ¬ Summarizes (fun _ => .error .notFound) []
        ((answer ["summary"] none).run fun _ => .error .notFound) := by
  have refused : ((answer ["summary"] none).run fun _ => .error .notFound).exitCode = 2 := rfl
  refine ⟨refused, fun summarizes => ?_⟩
  have success := summarizes.success_iff.2 ⟨[], .nil, List.forall_mem_nil _, List.nodup_nil⟩
  rw [refused] at success
  cases success

end Command
end ContainerBuild
