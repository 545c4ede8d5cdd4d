import ContainerBuild.Record.Lifecycle

namespace ContainerBuild

/-!
# A store of records

A store keeps records by key.  Creating a record never replaces one, and the only way to change a
stored record is to move its build along the lifecycle.  An operation that fails has no new
store to offer, so the old one stays as it was.
-/

/-- Records by key. -/
structure Store where
  records : Dict BuildKey Record
deriving DecidableEq

/-- Why a store refuses an operation. -/
inductive StoreError where
  | alreadyExists (key : BuildKey)
  | notFound (key : BuildKey)
  /-- The record has no name to be stored under. -/
  | unnamed
  | transition (error : Record.TransitionError)
deriving DecidableEq

/-- What is wrong, in words. -/
def StoreError.message : StoreError → String
  | .alreadyExists key => "build " ++ key.text ++ " already exists"
  | .notFound key => "build " ++ key.text ++ " not found"
  | .unnamed => "record has no metadata.name"
  | .transition error => error.message

namespace Store

/-- The store without records. -/
def empty : Store := ⟨.empty⟩

/-- Store one more record under its key. -/
def create (store : Store) (record : Record) : Except StoreError (BuildKey × Store) :=
  match record.key? with
  | none => .error .unnamed
  | some key =>
      if store.records.contains key then .error (.alreadyExists key)
      else .ok (key, ⟨store.records.insert key record⟩)

/-- The record under a key. -/
def get? (store : Store) (key : BuildKey) : Option Record := store.records.get? key

/-- Move the build of a stored record to a phase at an instant. -/
def transition (store : Store) (key : BuildKey) (target : Phase) (instant : Instant) :
    Except StoreError (Record × Store) :=
  match store.get? key with
  | none => .error (.notFound key)
  | some record =>
      match record.transition target instant with
      | .ok moved => .ok (moved, ⟨store.records.insert key moved⟩)
      | .error error => .error (.transition error)

/-- The entries of one namespace, or all, by ascending key. -/
def list (store : Store) (nameSpace : Option String) : List (BuildKey × Record) :=
  store.records.entries.filter fun entry => nameSpace.all (· == entry.1.nameSpace)

/-- Count one more occurrence of a name. -/
def tally (counts : Dict String Nat) (name : String) : Dict String Nat :=
  counts.insert name ((counts.get? name).getD 0 + 1)

/-- How many records are in each phase, by the name of the phase. -/
def counts (store : Store) : Dict String Nat :=
  (store.records.entries.map fun entry => entry.2.phase.name).foldl tally .empty

end Store
end ContainerBuild
