import Mathlib.Data.Nat.Notation
import Mathlib.Logic.Relation

/-!
# Loops turn by turn

A loop is given by what one turn of it does: it goes on with another state, ends with a result, or
asks for something that is out of range. When every turn that goes on comes further and none passes
the end of what is read, the loop ends (`runsInRange`); what every turn keeps holds in all states
that are reached (`Reaches.keeps`).
-/

set_option autoImplicit false

namespace TerraDeps

/-- What one turn of a loop comes to. -/
inductive Turn (σ α : Type) where
  /-- The loop goes on. -/
  | goesOn (state : σ)
  /-- The loop ends. -/
  | ends (result : α)
  deriving DecidableEq, Repr

variable {σ α : Type}

/-- The loop goes on with a state. -/
def goesOn (x : σ) : Option (Turn σ α) :=
  some (.goesOn x)

/-- Turns lead from the one state to the other. -/
def Reaches (turn : σ → Option (Turn σ α)) : σ → σ → Prop :=
  Relation.ReflTransGen fun x y => turn x = some (.goesOn y)

/-- The loop runs from the start to the result: its position is always within the size, no turn asks
for what is out of range, and every turn that goes on comes further. -/
structure RunsInRange (turn : σ → Option (Turn σ α)) (pos : σ → ℕ) (size : ℕ) (start : σ)
    (result : α) : Prop where
  inRange : ∀ x, Reaches turn start x → pos x ≤ size ∧ turn x ≠ none
  advances : ∀ x y, Reaches turn start x → turn x = some (.goesOn y) → pos x < pos y
  ends : ∃ x, Reaches turn start x ∧ turn x = some (.ends result)

/-- The turn comes further and keeps the invariant and the outcome, or ends with the outcome. -/
def Proceeds (turn : σ → Option (Turn σ α)) (pos : σ → ℕ) (Inv : σ → Prop) (outcome : σ → α)
    (x : σ) : Prop :=
  (∃ y, turn x = some (.goesOn y) ∧ pos x < pos y ∧ Inv y ∧ outcome y = outcome x) ∨
    turn x = some (.ends (outcome x))

variable {turn : σ → Option (Turn σ α)} {pos : σ → ℕ} {size : ℕ} {Inv : σ → Prop}
  {outcome : σ → α} {x y : σ}

/-- What every turn keeps holds in every state that is reached. -/
theorem Reaches.keeps (reaches : Reaches turn x y) (holds : Inv x)
    (keeps : ∀ x y, Inv x → turn x = some (.goesOn y) → Inv y) : Inv y := by
  induction reaches with
  | refl => exact holds
  | tail _ goesOn ih => exact keeps _ _ ih goesOn

/-- A turn that proceeds and goes on comes further and keeps the invariant and the outcome. -/
theorem Proceeds.of_goesOn (proceeds : Proceeds turn pos Inv outcome x)
    (goesOn : turn x = some (.goesOn y)) : pos x < pos y ∧ Inv y ∧ outcome y = outcome x := by
  rcases proceeds with ⟨next, leads, further⟩ | ends
  · obtain rfl : next = y := by simpa [leads] using goesOn
    exact further
  · simp [ends] at goesOn

/-- A loop that comes further with every turn, within a size, ends with its outcome. -/
theorem runsInRange (inRange : ∀ x, Inv x → pos x ≤ size)
    (proceeds : ∀ x, Inv x → Proceeds turn pos Inv outcome x) (holds : Inv x) :
    RunsInRange turn pos size x (outcome x) := by
  have keeps : ∀ y, Reaches turn x y → Inv y := fun y reaches =>
    reaches.keeps holds fun _ _ inv goesOn => ((proceeds _ inv).of_goesOn goesOn).2.1
  refine ⟨fun y reaches => ⟨inRange y (keeps y reaches), ?_⟩, fun y z reaches goesOn => ?_, ?_⟩
  · rcases proceeds y (keeps y reaches) with ⟨z, goesOn, -⟩ | ends
    · simp [goesOn]
    · simp [ends]
  · exact ((proceeds y (keeps y reaches)).of_goesOn goesOn).1
  · -- what is left before the size grows less with every turn
    clear keeps
    induction left : size - pos x using Nat.strongRecOn generalizing x with
    | ind n ih =>
      rcases proceeds x holds with ⟨y, goesOn, further, inv, same⟩ | ends
      · have within := inRange y inv
        obtain ⟨z, reaches, ends⟩ := ih (size - pos y) (by omega) inv rfl
        exact ⟨z, .head goesOn reaches, same ▸ ends⟩
      · exact ⟨x, .refl, ends⟩

end TerraDeps
