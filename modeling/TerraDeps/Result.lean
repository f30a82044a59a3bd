/-!
# Results that may fail

A result in `Except` succeeds with a value or fails with an error. What is done to its value or to
its error is done exactly when there is one.
-/

set_option autoImplicit false

namespace TerraDeps

/-- A function is applied to the value of a result that succeeds. -/
theorem map_eq_ok_iff {α β ε : Type} {r : Except ε α} {f : α → β} {b : β} :
    r.map f = .ok b ↔ ∃ a, r = .ok a ∧ f a = b := by
  cases r <;> simp [Except.map]

/-- To put an error in other words does not touch a result that succeeds. -/
theorem mapError_eq_ok_iff {α ε ε' : Type} {r : Except ε α} {f : ε → ε'} {a : α} :
    r.mapError f = .ok a ↔ r = .ok a := by
  cases r with
  | ok b =>
    constructor
    · intro h
      exact congrArg Except.ok (Except.ok.inj h)
    · intro h
      exact congrArg Except.ok (Except.ok.inj h)
  | error cause => exact iff_of_false nofun nofun

/-- A result that fails does so as well when a function is to be applied to its value. -/
theorem map_eq_error_iff {α β ε : Type} {r : Except ε α} {f : α → β} {e : ε} :
    r.map f = .error e ↔ r = .error e := by
  cases r <;> simp [Except.map]

/-- An error in other words is that of a result that fails. -/
theorem mapError_eq_error_iff {α ε ε' : Type} {r : Except ε α} {f : ε → ε'} {e : ε'} :
    r.mapError f = .error e ↔ ∃ cause, r = .error cause ∧ f cause = e := by
  cases r with
  | ok a => exact iff_of_false nofun fun ⟨_, same, _⟩ => nomatch same
  | error cause =>
    constructor
    · intro h
      exact ⟨cause, rfl, Except.error.inj h⟩
    · rintro ⟨_, ⟨⟩, rfl⟩
      rfl

/-- Two steps succeed when the first gives a value with which the second succeeds. -/
theorem bind_eq_ok_iff {α β ε : Type} {r : Except ε α} {f : α → Except ε β} {b : β} :
    r >>= f = .ok b ↔ ∃ a, r = .ok a ∧ f a = .ok b := by
  cases r <;> simp [bind, Except.bind]

end TerraDeps
