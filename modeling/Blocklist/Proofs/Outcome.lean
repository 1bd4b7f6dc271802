/-!
# Computations that may fail

What the value of a computation in several steps says about its steps. Each step of a pipeline is
taken apart with these, so that no proof has to open a computation further than to its next step.

* `bind_eq_ok_iff` — two steps in a row;
* `map_eq_ok_iff`, `mapError_eq_ok_iff` — a step whose value or whose error is changed.
-/

namespace Blocklist

variable {ε ε' α β : Type}

/-- Two steps in a row give a value if the first gives one from which the second does. -/
theorem bind_eq_ok_iff {x : Except ε α} {f : α → Except ε β} {b : β} :
    x >>= f = .ok b ↔ ∃ a, x = .ok a ∧ f a = .ok b := by
  refine ⟨?_, ?_⟩
  · intro h
    cases x with
    | error e => cases h
    | ok a => exact ⟨a, rfl, h⟩
  · rintro ⟨a, rfl, h⟩
    exact h

/-- A value that is changed on its way comes from one that was there before. -/
theorem map_eq_ok_iff {f : α → β} {x : Except ε α} {b : β} :
    x.map f = .ok b ↔ ∃ a, x = .ok a ∧ f a = b := by
  cases x with
  | error e =>
    refine ⟨nofun, ?_⟩
    rintro ⟨a, h, -⟩
    cases h
  | ok a =>
    refine ⟨fun h => ⟨a, rfl, Except.ok.inj h⟩, ?_⟩
    rintro ⟨a', h, rfl⟩
    rw [Except.ok.inj h]
    rfl

theorem mapError_eq_ok_iff {f : ε → ε'} {x : Except ε α} {a : α} :
    x.mapError f = .ok a ↔ x = .ok a := by
  cases x with
  | error e => exact ⟨nofun, nofun⟩
  | ok a' =>
    refine ⟨?_, ?_⟩
    · intro h
      exact congrArg Except.ok (Except.ok.inj h)
    · intro h
      exact congrArg Except.ok (Except.ok.inj h)

end Blocklist
