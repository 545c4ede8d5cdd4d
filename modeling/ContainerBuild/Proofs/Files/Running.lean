import ContainerBuild.Files.Script
import ContainerBuild.Proofs.Outcomes

namespace ContainerBuild

/-!
# What scripts come to

A script that can fail goes on with another only if it does not, so it comes to a value exactly if
all its parts do (`run_bind_ok_iff`), and fails in a certain way if all its parts do (`FailsOnly`).
-/

namespace Script

/-- A script that goes on with another comes to something only if both do. -/
theorem run_bind_ok {ε α β : Type} {files : Files} {first : ExceptT ε Script α}
    {next : α → ExceptT ε Script β} {y : β} (done : (first >>= next).run.run files = .ok y) :
    ∃ x, first.run.run files = .ok x ∧ (next x).run.run files = .ok y := by
  rw [ExceptT.run_bind, run_bind] at done
  cases outcome : first.run.run files with
  | error error =>
      rw [outcome] at done
      cases done
  | ok x =>
      rw [outcome] at done
      exact ⟨x, rfl, done⟩

theorem run_bind_of_ok {ε α β : Type} {files : Files} {first : ExceptT ε Script α}
    {next : α → ExceptT ε Script β} {x : α} (done : first.run.run files = .ok x) :
    (first >>= next).run.run files = (next x).run.run files := by
  rw [ExceptT.run_bind, run_bind, done]

theorem run_bind_ok_iff {ε α β : Type} {files : Files} {first : ExceptT ε Script α}
    {next : α → ExceptT ε Script β} {y : β} : (first >>= next).run.run files = .ok y ↔
      ∃ x, first.run.run files = .ok x ∧ (next x).run.run files = .ok y :=
  ⟨run_bind_ok, fun ⟨_, before, after⟩ => (run_bind_of_ok before).trans after⟩

/-! ## Ways to fail -/

/-- Whether a script only fails in a certain way, whatever files there are. -/
def FailsOnly {ε α : Type} (way : ε → Prop) (script : ExceptT ε Script α) : Prop :=
  ∀ files error, script.run.run files = .error error → way error

namespace FailsOnly

variable {ε α β : Type} {way : ε → Prop}

theorem bind {script : ExceptT ε Script α} {next : α → ExceptT ε Script β}
    (first : FailsOnly way script) (later : ∀ value, FailsOnly way (next value)) :
    FailsOnly way (script >>= next) := by
  intro files error failed
  rw [ExceptT.run_bind, run_bind] at failed
  cases outcome : script.run.run files with
  | error cause =>
      rw [outcome] at failed
      rw [← Except.error.inj failed]
      exact first files cause outcome
  | ok value =>
      rw [outcome] at failed
      exact later value files error failed

theorem pure (value : α) : FailsOnly way (pure value) := fun _ _ failed => nomatch failed

theorem readFile (path : String) :
    FailsOnly way (liftM (Script.readFile path) : ExceptT ε Script (Except FileError String)) :=
  fun _ _ failed => nomatch failed

/-- A failure that is wrapped fails in the way of its wrapping. -/
theorem mapError {κ : Type} {wrap : κ → ε} (wrapped : ∀ cause, way (wrap cause))
    (result : Except κ α) :
    FailsOnly way (liftM (result.mapError wrap) : ExceptT ε Script α) := by
  intro files error failed
  cases result with
  | error cause =>
      rw [← Except.error.inj failed]
      exact wrapped cause
  | ok value => cases failed

theorem foldlM {σ : Type} {step : σ → α → ExceptT ε Script σ}
    (each : ∀ state item, FailsOnly way (step state item)) (items : List α) (state : σ) :
    FailsOnly way (items.foldlM step state) := by
  induction items generalizing state with
  | nil => exact pure state
  | cons item rest inductionHypothesis =>
      rw [List.foldlM_cons]
      exact bind (each state item) inductionHypothesis

end FailsOnly

end Script
end ContainerBuild
