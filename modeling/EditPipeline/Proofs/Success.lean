/-!
# Steps that succeed

Readers, walks and operations on files are sequences of steps that may fail.  A sequence
that succeeded is taken apart here, step by step.
-/

namespace EditPipeline

variable {ε α β : Type} {first : Except ε α} {b : β}

/-- A step after one that succeeded. -/
theorem ok_bind (a : α) (second : α → Except ε β) :
    ((Except.ok a : Except ε α) >>= second) = second a := rfl

/-- A step that succeeded and whose result is only put in its place. -/
theorem bind_pure_of_eq_ok {a : α} (put : α → β) (hfirst : first = .ok a) :
    (first >>= fun a => pure (put a)) = .ok (put a) := by
  rw [hfirst]
  rfl

/-- Two steps succeed if the first one does and the second one does with its result. -/
theorem bind_eq_ok_iff {second : α → Except ε β} :
    (first >>= second) = .ok b ↔ ∃ a, first = .ok a ∧ second a = .ok b := by
  cases first with
  | error e =>
      constructor
      · intro h
        cases h
      · rintro ⟨a, h, -⟩
        cases h
  | ok a =>
      constructor
      · intro h
        exact ⟨a, rfl, h⟩
      · rintro ⟨_, ha, h⟩
        cases ha
        exact h

/-- What a step gives after a function was applied to its result. -/
theorem map_eq_ok_iff {f : α → β} :
    first.map f = .ok b ↔ ∃ a, first = .ok a ∧ f a = b := by
  cases first with
  | error e =>
      constructor
      · intro h
        cases h
      · rintro ⟨a, h, -⟩
        cases h
  | ok a =>
      constructor
      · intro h
        cases h
        exact ⟨a, rfl, rfl⟩
      · rintro ⟨_, ha, rfl⟩
        cases ha
        rfl

/-- A step whose error is put in other words succeeds as before. -/
theorem mapError_eq_ok_iff {ε' : Type} {a : α} {first : Except ε α} {f : ε → ε'} :
    first.mapError f = .ok a ↔ first = .ok a := by
  cases first with
  | error e =>
      constructor
      · intro h
        cases h
      · intro h
        cases h
  | ok a =>
      constructor
      · intro h
        cases h
        rfl
      · intro h
        cases h
        rfl

end EditPipeline
