import ContainerBuild.Command.Arguments
import ContainerBuild.Proofs.Json.Members
import ContainerBuild.Proofs.Outcomes

namespace ContainerBuild
namespace Command

/-!
# Command lines for a summary

A summary takes any number of files, one at least, and none of them may be the empty path.  Behind
two dashes, and wherever no argument looks like a switch, every argument is a file, so all lists
of files can be asked for and the others are refused (`parse_files`).  However a summary is asked
for, the files are as they have to be (`files_of_parse`).
-/

section Several

variable {usage : Usage} (several : usage.severalFiles = true)
include several

theorem takeFile_several {file : String} (named : file ≠ "") (arguments : Arguments) :
    arguments.takeFile usage file = .ok { arguments with files := arguments.files ++ [file] } :=
  if_neg (by simp [several, named])

/-- Arguments that are all files are taken if none of them is empty. -/
theorem takeFiles_several {paths : List String} (named : "" ∉ paths) (arguments : Arguments) :
    paths.foldlM (fun arguments file => arguments.takeFile usage file) arguments =
      .ok { arguments with files := arguments.files ++ paths } := by
  induction paths generalizing arguments with
  | nil => simp only [List.foldlM_nil, List.append_nil, pure, Except.pure]
  | cons path rest inductionHypothesis =>
      have apart := List.ne_and_not_mem_of_not_mem_cons named
      rw [List.foldlM_cons, takeFile_several several (Ne.symm apart.1)]
      refine (inductionHypothesis apart.2 _).trans ?_
      rw [List.append_assoc, List.singleton_append]

/-- An empty path is refused, wherever it stands. -/
theorem takeFiles_unnamed {paths : List String} (unnamed : "" ∈ paths) (arguments : Arguments) :
    paths.foldlM (fun arguments file => arguments.takeFile usage file) arguments =
      .error .misuse := by
  induction paths generalizing arguments with
  | nil => cases unnamed
  | cons path rest inductionHypothesis =>
      rw [List.foldlM_cons]
      by_cases empty : path = ""
      · have refused : arguments.takeFile usage path = .error .misuse := if_pos (.inl empty)
        rw [refused]
        rfl
      · rw [takeFile_several several empty]
        exact inductionHypothesis ((List.mem_cons.1 unnamed).resolve_left (Ne.symm empty)) _

end Several

/-- Arguments that do not look like switches are files. -/
theorem take_of_isValue {usage : Usage} {paths : List String}
    (values : ∀ path ∈ paths, Arguments.isValue path = true) (arguments : Arguments) :
    arguments.take usage paths =
      paths.foldlM (fun arguments file => arguments.takeFile usage file) arguments := by
  induction paths generalizing arguments with
  | nil => rfl
  | cons path rest inductionHypothesis =>
      have values := List.forall_mem_cons.1 values
      have value : path = "-" ∨ path.toList.head? ≠ some '-' := of_decide_eq_true values.1
      have next (taken : Arguments) : taken.take usage rest =
          rest.foldlM (fun arguments file => arguments.takeFile usage file) taken :=
        inductionHypothesis values.2 taken
      simp only [List.foldlM_cons, ← next]
      rcases value with rfl | free
      · rfl
      · rw [Arguments.take]
        split
        next begins => exact absurd (by rw [begins]; rfl) free
        next begins => exact absurd (by rw [begins]; rfl) free
        next begins => exact absurd (by rw [begins]; rfl) free
        next begins => exact absurd (by rw [begins]; rfl) free
        next begins => exact absurd (by rw [begins]; rfl) free
        next => rfl

/-- No empty path is taken. -/
theorem named_of_takeFile {usage : Usage} {arguments taken : Arguments} {file : String}
    (done : arguments.takeFile usage file = .ok taken) (named : "" ∉ arguments.files) :
    "" ∉ taken.files := by
  unfold Arguments.takeFile at done
  split at done
  next => cases done
  next fits =>
    cases done
    rw [List.mem_append, List.mem_singleton]
    rintro (here | here)
    · exact named here
    · exact fits (.inl here.symm)

theorem named_of_takeFiles {usage : Usage} {arguments taken : Arguments} {paths : List String}
    (done : paths.foldlM (fun arguments file => arguments.takeFile usage file) arguments =
      .ok taken) (named : "" ∉ arguments.files) : "" ∉ taken.files := by
  induction paths generalizing arguments with
  | nil =>
      cases done
      exact named
  | cons path rest inductionHypothesis =>
      rw [List.foldlM_cons] at done
      rcases Except.bind_ok_iff.1 done with ⟨next, first, others⟩
      exact inductionHypothesis others (named_of_takeFile first named)

theorem files_takeFlag {arguments taken : Arguments} {name : String}
    (done : arguments.takeFlag name = .ok taken) : taken.files = arguments.files := by
  unfold Arguments.takeFlag at done
  split at done <;> cases done
  rfl

theorem files_takeOption {arguments taken : Arguments} {name value : String}
    (done : arguments.takeOption name value = .ok taken) : taken.files = arguments.files := by
  unfold Arguments.takeOption at done
  split at done <;> cases done
  rfl

/-- No argument brings an empty path in: one that is a file is looked at, the others leave the
files alone. -/
theorem named_of_take {usage : Usage} {arguments taken : Arguments} {given : List String}
    (done : arguments.take usage given = .ok taken) (named : "" ∉ arguments.files) :
    "" ∉ taken.files := by
  fun_induction Arguments.take usage arguments given
  case case1 =>
    cases done
    exact named
  case case2 inductionHypothesis | case14 inductionHypothesis =>
    rcases Except.bind_ok_iff.1 done with ⟨next, first, others⟩
    exact inductionHypothesis next others (named_of_takeFile first named)
  case case3 => exact named_of_takeFiles done named
  case case4 inductionHypothesis | case8 inductionHypothesis =>
    rcases Except.bind_ok_iff.1 done with ⟨next, first, others⟩
    exact inductionHypothesis next others ((files_takeOption first).symm ▸ named)
  case case7 inductionHypothesis =>
    rcases Except.bind_ok_iff.1 done with ⟨next, first, others⟩
    exact inductionHypothesis next others ((files_takeFlag first).symm ▸ named)
  -- The others are refused, or stop for help.
  all_goals cases done

/-! ## Asking for a summary -/

theorem parse_summary (rest : List String) :
    Request.parse ("summary" :: rest) = match readSeveral .summary rest with
      | .ok command => some (.command command)
      | .error .help => some .help
      | .error .misuse => none := by
  have found : table.lookup "summary" = some (readSeveral .summary) := rfl
  cases read : readSeveral .summary rest with
  | ok command => simp [Request.parse, found, read, Except.map]
  | error stop => cases stop <;> simp [Request.parse, found, read, Except.map]

/-- A summary can be asked for of any files, except if there are none or one has an empty path. -/
theorem parse_files {rest paths : List String}
    (taken : ({} : Arguments).take { severalFiles := true } rest =
      paths.foldlM (fun arguments file => arguments.takeFile { severalFiles := true } file) {}) :
    Request.parse ("summary" :: rest) =
      if paths = [] ∨ "" ∈ paths then none else some (.command (.summary paths)) := by
  have several : ({ severalFiles := true } : Usage).severalFiles = true := rfl
  rw [parse_summary, readSeveral, taken]
  by_cases unnamed : "" ∈ paths
  · rw [takeFiles_unnamed several unnamed, if_pos (.inr unnamed)]
    rfl
  · rw [takeFiles_several several unnamed]
    cases paths with
    | nil => rfl
    | cons path rest =>
        rw [if_neg (not_or.2 ⟨List.cons_ne_nil path rest, unnamed⟩)]
        rfl

theorem parse_behindDashes (paths : List String) : Request.parse ("summary" :: "--" :: paths) =
    if paths = [] ∨ "" ∈ paths then none else some (.command (.summary paths)) :=
  parse_files rfl

theorem parse_ofValues {paths : List String}
    (values : ∀ path ∈ paths, Arguments.isValue path = true) : Request.parse ("summary" :: paths) =
      if paths = [] ∨ "" ∈ paths then none else some (.command (.summary paths)) :=
  parse_files (take_of_isValue values {})

/-! ## Commands by name -/

theorem readOne_ok {usage : Usage} {make : String → Arguments → Command} {arguments : List String}
    {command : Command} (read : readOne usage make arguments = .ok command) :
    ∃ file given, command = make file given := by
  rcases Except.bind_ok_iff.1 read with ⟨given, -, made⟩
  split at made
  next file _ => exact ⟨file, given, (Except.ok.inj made).symm⟩
  next => cases made

theorem readSeveral_ok {make : List String → Command} {arguments : List String} {command : Command}
    (read : readSeveral make arguments = .ok command) :
    ∃ paths, (paths ≠ [] ∧ "" ∉ paths) ∧ command = make paths := by
  rcases Except.bind_ok_iff.1 read with ⟨given, taken, made⟩
  split at made
  next => cases made
  next more =>
    have named := named_of_take taken List.not_mem_nil
    exact ⟨given.files, ⟨by simpa using more, named⟩, (Except.ok.inj made).symm⟩

/-- Only one of the commands takes more than one file. -/
theorem files_of_table : ∀ entry ∈ table, ∀ {arguments paths : List String},
    entry.2 arguments = .ok (.summary paths) → paths ≠ [] ∧ "" ∉ paths := by
  intro entry here arguments paths read
  simp only [table, List.mem_cons, List.not_mem_nil, or_false] at here
  rcases here with rfl | rfl | rfl | rfl | rfl | rfl
  case inr.inr.inr.inr.inr =>
    rcases readSeveral_ok read with ⟨_, fits, same⟩
    cases same
    exact fits
  all_goals
    rcases readOne_ok read with ⟨_, _, same⟩
    cases same

theorem readHelp_ne_command (arguments : List String) (command : Command) :
    readHelp arguments ≠ .ok (.command command) := by
  intro read
  unfold readHelp at read
  split at read
  · cases read
  · cases read
  · split at read <;> cases read
  · cases read

/-- A command is read by its name. -/
theorem exists_read_of_parse {arguments : List String} {command : Command}
    (asked : Request.parse arguments = some (.command command)) :
    ∃ entry ∈ table, ∃ rest, entry.2 rest = .ok command := by
  cases arguments with
  | nil => cases asked
  | cons name rest =>
      rw [Request.parse] at asked
      split at asked
      next request outcome =>
        cases asked
        split at outcome
        next => cases outcome
        next => cases outcome
        split at outcome
        next => cases outcome
        split at outcome
        next => cases outcome
        split at outcome
        next => exact absurd outcome (readHelp_ne_command rest command)
        split at outcome
        next read found =>
          refine ⟨(name, read), Members.mem_of_lookup_eq_some found, rest, ?_⟩
          cases asked : read rest with
          | error stop =>
              rw [asked] at outcome
              cases outcome
          | ok other =>
              rw [asked] at outcome
              cases outcome
              exact asked
        next => cases outcome
      next => cases asked
      next => cases asked

/-- However a summary is asked for, it is one of some files, and no path is empty. -/
theorem files_of_parse {arguments paths : List String}
    (asked : Request.parse arguments = some (.command (.summary paths))) :
    paths ≠ [] ∧ "" ∉ paths := by
  rcases exists_read_of_parse asked with ⟨entry, here, rest, read⟩
  exact files_of_table entry here read

end Command
end ContainerBuild
