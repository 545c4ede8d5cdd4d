namespace ContainerBuild

/-!
# What computations that can fail come to

A computation in steps comes to a value exactly if every step does (`Except.bind_ok_iff`).  That
something is known of its value says that there is one, which is how a computation on a fixed input
is shown to succeed.
-/

theorem Except.bind_ok_iff {ε α β : Type} {first : Except ε α} {next : α → Except ε β} {y : β} :
    (first >>= next) = .ok y ↔ ∃ x, first = .ok x ∧ next x = .ok y := by
  cases first with
  | error error =>
      refine ⟨fun done => (by cases done), ?_⟩
      rintro ⟨_, same, -⟩
      cases same
  | ok x =>
      refine ⟨fun done => ⟨x, rfl, done⟩, ?_⟩
      rintro ⟨_, same, done⟩
      rw [Except.ok.inj same]
      exact done

/-- Something comes of a computation if something is known of what comes of it. -/
theorem Except.exists_ok_of_any {ε α : Type} {outcome : Except ε α} {holds : α → Bool}
    (known : outcome.toOption.any holds = true) : ∃ x, outcome = .ok x ∧ holds x = true := by
  cases outcome with
  | error error => cases known
  | ok x => exact ⟨x, rfl, known⟩

/-- Something comes of a computation if something is known of what is made of it. -/
theorem Except.exists_ok_of_map {ε α β : Type} {outcome : Except ε α} {make : α → β} {y : β}
    (known : outcome.toOption.map make = some y) : ∃ x, outcome = .ok x ∧ make x = y := by
  cases outcome with
  | error error => cases known
  | ok x => exact ⟨x, rfl, Option.some.inj known⟩

theorem Except.exists_ok_of_toBool {ε α : Type} {outcome : Except ε α}
    (fine : outcome.toBool = true) : ∃ x, outcome = .ok x := by
  cases outcome with
  | error error => cases fine
  | ok x => exact ⟨x, rfl⟩

theorem Except.mapError_ok_iff {ε κ α : Type} {wrap : ε → κ} {result : Except ε α} {x : α} :
    result.mapError wrap = .ok x ↔ result = .ok x := by
  cases result with
  | error cause =>
      constructor
      · intro done
        cases done
      · intro done
        cases done
  | ok value =>
      change Except.ok value = Except.ok x ↔ _
      rw [Except.ok.injEq, Except.ok.injEq]

end ContainerBuild
