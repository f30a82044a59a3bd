import Mathlib.Data.List.Forall2
import TerraDeps.Result

/-!
# Going through a list

What going through a list in `Except` gives, said of its elements: it succeeds exactly when every
element does, and fails with the first that does not. A reader that has come to a position of a list
goes on with what is left from there.
-/

set_option autoImplicit false

namespace TerraDeps

/-- What is first from a position on stands at the position. -/
theorem getElem?_of_drop {α : Type} {xs rest : List α} {x : α} {i : ℕ}
    (h : xs.drop i = x :: rest) : xs[i]? = some x := by
  rw [← List.head?_drop, h, List.head?_cons]

/-- From the next position on, the first is left out. -/
theorem drop_succ_of_drop {α : Type} {xs rest : List α} {x : α} {i : ℕ}
    (h : xs.drop i = x :: rest) : xs.drop (i + 1) = rest := by
  rw [← List.tail_drop, h, List.tail_cons]

/-- Up to the next position, the first is taken too. -/
theorem take_succ_of_drop {α : Type} {xs rest : List α} {x : α} {i : ℕ}
    (h : xs.drop i = x :: rest) : xs.take (i + 1) = xs.take i ++ [x] := by
  rw [List.take_add_one, getElem?_of_drop h, Option.toList_some]

/-- What stands at a position is first from there on. -/
theorem drop_of_getElem? {α : Type} {xs : List α} {x : α} {i : ℕ} (h : xs[i]? = some x) :
    xs.drop i = x :: xs.drop (i + 1) := by
  obtain ⟨inside, rfl⟩ := List.getElem?_eq_some_iff.mp h
  exact List.drop_eq_getElem_cons inside

/-- Nothing is left from a position where nothing stands. -/
theorem drop_of_getElem?_eq_none {α : Type} {xs : List α} {i : ℕ} (h : xs[i]? = none) :
    xs.drop i = [] :=
  List.drop_eq_nil_of_le (List.getElem?_eq_none_iff.mp h)

/-- Going through a list in `Except` succeeds exactly when it does at every element. -/
theorem mapM_eq_ok_iff {α β ε : Type} {f : α → Except ε β} {xs : List α} {ys : List β} :
    xs.mapM f = .ok ys ↔ List.Forall₂ (fun x y => f x = .ok y) xs ys := by
  induction xs generalizing ys with
  | nil => cases ys <;> simp [pure, Except.pure]
  | cons x xs ih =>
    rw [List.mapM_cons]
    cases ys with
    | nil => cases f x <;> cases xs.mapM f <;> simp [bind, Except.bind, pure, Except.pure]
    | cons y ys =>
      rw [List.forall₂_cons, ← ih]
      cases f x <;> cases xs.mapM f <;> simp [bind, Except.bind, pure, Except.pure]

/-- Elements can be related one by one if each is related to something. -/
theorem exists_forall₂_iff {α β : Type} {R : α → β → Prop} {xs : List α} :
    (∃ ys, List.Forall₂ R xs ys) ↔ ∀ x ∈ xs, ∃ y, R x y := by
  induction xs with
  | nil => simp
  | cons x xs ih =>
    rw [List.forall_mem_cons, ← ih]
    constructor
    · rintro ⟨ys, related⟩
      obtain ⟨y, zs, first, later, -⟩ := List.forall₂_cons_left_iff.mp related
      exact ⟨⟨y, first⟩, zs, later⟩
    · rintro ⟨⟨y, first⟩, ys, later⟩
      exact ⟨y :: ys, List.Forall₂.cons first later⟩

/-- What is related one by one has an element for each on the right. -/
theorem exists_of_mem_right {α β : Type} {R : α → β → Prop} {xs : List α} {ys : List β} {y : β}
    (related : List.Forall₂ R xs ys) (found : y ∈ ys) : ∃ x ∈ xs, R x y := by
  induction related with
  | nil => contradiction
  | cons first _ ih =>
    rcases List.mem_cons.mp found with rfl | later
    · exact ⟨_, List.mem_cons_self, first⟩
    · obtain ⟨x, inside, related⟩ := ih later
      exact ⟨x, List.mem_cons_of_mem _ inside, related⟩

/-- Going through a list in `Except` fails exactly as the first element that fails does. -/
theorem mapM_eq_error_iff {α β ε : Type} {f : α → Except ε β} {xs : List α} {e : ε} :
    xs.mapM f = .error e ↔ ∃ before x after, xs = before ++ x :: after ∧
      (∀ y ∈ before, ∃ b, f y = .ok b) ∧ f x = .error e := by
  -- Either the head fails, with nothing before it, or the failure is one of the tail.
  induction xs with
  | nil => simp [pure, Except.pure]
  | cons x xs ih =>
    rw [List.mapM_cons]
    constructor
    · intro h
      cases first : f x with
      | error own =>
        rw [first] at h
        exact ⟨[], x, xs, rfl, by simp, first.trans (congrArg Except.error (Except.error.inj h))⟩
      | ok b =>
        cases rest : xs.mapM f with
        | ok bs => simp [first, rest, bind, Except.bind, pure, Except.pure] at h
        | error own =>
          obtain rfl : own = e := by simpa [first, rest, bind, Except.bind] using h
          obtain ⟨before, y, after, rfl, sound, fails⟩ := ih.mp rest
          exact ⟨x :: before, y, after, rfl, List.forall_mem_cons.mpr ⟨⟨b, first⟩, sound⟩, fails⟩
    · rintro ⟨before, y, after, split, sound, fails⟩
      cases before with
      | nil =>
        obtain ⟨rfl, -⟩ := List.cons.inj split
        rw [fails]
        rfl
      | cons z before =>
        obtain ⟨rfl, rfl⟩ := List.cons.inj split
        obtain ⟨⟨b, first⟩, sound⟩ := List.forall_mem_cons.mp sound
        rw [first, ih.mpr ⟨before, y, after, rfl, sound, fails⟩]
        rfl

/-- Going through a list in `Except` fails at the first element that is bad, and else gives what the
elements give. -/
theorem mapM_eq_of_find {α β ε : Type} {f : α → Except ε β} {bad : α → Bool} {cause : α → ε}
    (value : α → Option β) (fails : ∀ x, bad x = true → f x = .error (cause x))
    (succeeds : ∀ x, bad x = false → ∃ y, value x = some y ∧ f x = .ok y) (xs : List α) :
    xs.mapM f = match xs.find? bad with
      | some x => .error (cause x)
      | none => .ok (xs.filterMap value) := by
  induction xs with
  | nil => rfl
  | cons x xs ih =>
    rw [List.mapM_cons, List.find?_cons]
    cases h : bad x with
    | true =>
      rw [fails x h]
      rfl
    | false =>
      obtain ⟨y, gives, runs⟩ := succeeds x h
      rw [runs, ih, List.filterMap_cons, gives]
      cases xs.find? bad <;> rfl

end TerraDeps
