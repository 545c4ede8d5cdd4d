import ContainerBuild.Json.Answer

namespace ContainerBuild

/-!
# Phases of a build

Seven phases have a meaning here.  A phase of any other name is kept as that name, and the type
rules out that one of the seven hides under `other`; every phase is thus the phase of exactly
one name.
-/

namespace Phase

/-- The names of the phases that have a meaning here. -/
def familiarNames : List String :=
  ["New", "Pending", "Running", "Complete", "Failed", "Error", "Cancelled"]

end Phase

/-- Where a build stands. -/
inductive Phase where
  | new
  | pending
  | running
  | complete
  | failed
  | error
  | cancelled
  | other (name : String) (unfamiliar : name ∉ Phase.familiarNames)
deriving DecidableEq

namespace Phase

/-- The name of a phase. -/
def name : Phase → String
  | .new => "New"
  | .pending => "Pending"
  | .running => "Running"
  | .complete => "Complete"
  | .failed => "Failed"
  | .error => "Error"
  | .cancelled => "Cancelled"
  | .other name _ => name

/-- The phase of a name. -/
def ofName (name : String) : Phase :=
  if unfamiliar : name ∉ familiarNames then .other name unfamiliar
  else if name = "New" then .new
  else if name = "Pending" then .pending
  else if name = "Running" then .running
  else if name = "Complete" then .complete
  else if name = "Failed" then .failed
  else if name = "Error" then .error
  else .cancelled

/-- Whether a phase has a meaning here. -/
def isFamiliar : Phase → Bool
  | .other _ _ => false
  | _ => true

/-- Whether a build in this phase is over for good. -/
def isTerminal : Phase → Bool
  | .complete | .failed | .error | .cancelled => true
  | _ => false

/-- Whether a build in this phase is over without success. -/
def isUnsuccessful : Phase → Bool
  | .failed | .error | .cancelled => true
  | _ => false

/-- Whether a build may go from one phase to another: forwards one step at a time, or from any
phase before the end to an unsuccessful end. -/
def canBecome : Phase → Phase → Bool
  | .new, .pending => true
  | .pending, .running => true
  | .running, .complete => true
  | .new, next | .pending, next | .running, next => next.isUnsuccessful
  | _, _ => false

/-- Read a phase from its name. -/
def ofJson (value : Json) : Except Json.Fault Phase := value.asString.map ofName

/-- A phase as its name. -/
def toJson (phase : Phase) : Json := .string phase.name

/-- The phase of the name of a phase is that phase. -/
theorem ofName_name (phase : Phase) : ofName phase.name = phase := by
  cases phase with
  | other name unfamiliar => exact dif_pos unfamiliar
  | _ => decide

/-- The phase of a name has that name. -/
theorem name_ofName (name : String) : (ofName name).name = name := by
  by_cases unfamiliar : name ∉ familiarNames
  · rw [ofName, dif_pos unfamiliar, Phase.name]
  · simp only [Decidable.not_not, familiarNames, List.mem_cons, List.not_mem_nil, or_false]
      at unfamiliar
    rcases unfamiliar with rfl | rfl | rfl | rfl | rfl | rfl | rfl <;> decide

end Phase
end ContainerBuild
