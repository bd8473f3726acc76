/-! # Steps that may fail

A step after another one has a result only if both have one, and fails only in a way in which one of them
does.
-/

namespace PlanService

variable {ε α β : Type} {first : Except ε α}

theorem exists_of_bind_eq_ok {next : α → Except ε β} {b : β} (done : first >>= next = .ok b) :
    ∃ a, first = .ok a ∧ next a = .ok b := by
  cases first with
  | error fault => cases done
  | ok a => exact ⟨a, rfl, done⟩

theorem exists_of_map_eq_ok {f : α → β} {b : β} (done : f <$> first = .ok b) :
    ∃ a, first = .ok a ∧ f a = b := by
  cases first with
  | error fault => cases done
  | ok a => exact ⟨a, rfl, Except.ok.inj done⟩

/-- What neither of two steps raises, the two in a row do not raise. -/
theorem bind_ne_error {error : ε} {next : α → Except ε β} (firstRaises : first ≠ .error error)
    (nextRaises : ∀ a, next a ≠ .error error) : (first >>= next) ≠ .error error := by
  cases first with
  | error other => exact fun same => firstRaises (by cases same; rfl)
  | ok a => exact nextRaises a

end PlanService
