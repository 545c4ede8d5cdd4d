import ContainerBuild.Files.Basic

namespace ContainerBuild

/-!
# Scripts that read files

A script says which file it reads next, given what it has read so far, and what it comes to in the
end.  It reads nothing by itself: the same script can be run on files that are given as a value
and on those of a machine.
-/

/-- A computation that may read files. -/
inductive Script (α : Type) where
  | done (value : α)
  | read (path : String) (next : Except FileError String → Script α)

namespace Script

variable {α β : Type}

/-- Go on with another script. -/
def bind : Script α → (α → Script β) → Script β
  | .done value, next => next value
  | .read path continuation, next => .read path fun text => (continuation text).bind next

instance : Monad Script where
  pure := .done
  bind := bind

/-- The text of a file. -/
def readFile (path : String) : Script (Except FileError String) := .read path .done

/-- What a script comes to on given files. -/
def run (files : Files) : Script α → α
  | .done value => value
  | .read path next => (next (files path)).run files

/-- Running one script after another is running the second on what the first came to. -/
theorem run_bind (files : Files) (script : Script α) (next : α → Script β) :
    (script >>= next).run files = (next (script.run files)).run files := by
  induction script with
  | done value => rfl
  | read path continuation inductionHypothesis => exact inductionHypothesis (files path)

end Script
end ContainerBuild
