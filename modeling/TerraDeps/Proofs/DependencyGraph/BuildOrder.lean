import Mathlib.Data.List.Lex
import Mathlib.Order.WellFoundedSet
import TerraDeps.DependencyGraph.BuildOrder
import TerraDeps.Proofs.DependencyGraph.CycleSearch

/-!
# The build order is the least of all

A *build order* of a graph has every unit once and each unit after its dependencies. Placing units
is taken apart into its smallest steps, a unit being taken and then counted off for one dependent
after the other; between any two steps the `Invariant` says what each count is and which units are
ready. The count of a unit is a number of units, and so never below 0. Whatever any build order has
next is ready, so that the one found is the least in the order of lists; and of an acyclic graph
nothing is left over, since among the units left over some would depend on none of the others.
-/

set_option autoImplicit false

namespace TerraDeps

open DependencyGraph

/-- Each unit stands after all that it depends on. -/
def DependencyGraph.DependenciesFirst (g : DependencyGraph) (order : List Address) : Prop :=
  ∀ before a after, order = before ++ a :: after → ∀ b, g.DependsOn a b → b ∈ before

/-- The list has every unit once, and each after all that it depends on. -/
structure DependencyGraph.IsBuildOrder (g : DependencyGraph) (order : List Address) : Prop where
  nodup : order.Nodup
  mem_iff : ∀ a, a ∈ order ↔ a ∈ g.units.toList
  dependenciesFirst : g.DependenciesFirst order

namespace Placement

/-- The situations that occur while the units of `g` are placed, each with the units for which the
unit placed last has still to be counted off. -/
inductive Occurs (g : DependencyGraph) : Placement → List Address → Prop
  | start : Occurs g (start g) []
  | take {p q : Placement} {a : Address} (h : Occurs g p [])
      (taken : p.takeReady? = some (a, q)) : Occurs g q (g.dependents a)
  | release {p : Placement} {b : Address} {todo : List Address} (h : Occurs g p (b :: todo)) :
      Occurs g (p.release b) todo

/-- How many of the dependencies of `a` do not stand in the order. -/
def unplaced (g : DependencyGraph) (order : List Address) (a : Address) : ℕ :=
  (g.directDependencies a).countP fun b => decide (b ∉ order)

/-- What holds in every situation that occurs. -/
structure Invariant (g : DependencyGraph) (p : Placement) (todo : List Address) : Prop where
  pending : ∀ a ∈ g.units.toList, p.pending.get? a =
    some ((unplaced g p.order a : ℤ) + if a ∈ todo then 1 else 0)
  known : ∀ a count, p.pending.get? a = some count → a ∈ g.units.toList
  ready_iff : ∀ a, p.ready.get? a = some () ↔
    a ∈ g.units.toList ∧ a ∉ p.order ∧ unplaced g p.order a = 0 ∧ a ∉ todo
  nodup : p.order.Nodup
  inside : ∀ a ∈ p.order, a ∈ g.units.toList
  dependenciesFirst : g.DependenciesFirst p.order
  todo_nodup : todo.Nodup
  todo_fresh : ∀ a ∈ todo, a ∈ g.units.toList ∧ a ∉ p.order

variable {g : DependencyGraph} {p q : Placement} {a b : Address} {order todo : List Address}

/-- No dependency of a unit is unplaced when all of them stand in the order. -/
theorem unplaced_eq_zero_iff :
    unplaced g order a = 0 ↔ ∀ b, g.DependsOn a b → b ∈ order := by
  unfold unplaced
  rw [List.countP_eq_zero]
  simp only [mem_directDependencies_iff, decide_eq_true_eq, not_not]

/-- Of a list without repetition, one more is accounted for when `a` is. -/
theorem countP_not_mem_concat {units : List Address} (distinct : units.Nodup) (fresh : a ∉ order) :
    units.countP (fun c => decide (c ∉ order)) =
      units.countP (fun c => decide (c ∉ order ++ [a])) + if a ∈ units then 1 else 0 := by
  induction units with
  | nil => rfl
  | cons c units ih =>
    obtain ⟨once, distinct⟩ := List.nodup_cons.mp distinct
    have rest := ih distinct
    by_cases same : c = a
    · subst same
      rw [List.countP_cons_of_pos (by simpa using fresh), List.countP_cons_of_neg (by simp), rest]
      simp [once]
    · have test : decide (c ∉ order ++ [a]) = decide (c ∉ order) := by simp [same]
      simp only [List.countP_cons, test, List.mem_cons, Ne.symm same, false_or]
      omega

/-- Placing a unit counts for the units that depend on it. -/
theorem unplaced_concat (fresh : a ∉ order) (b : Address) :
    unplaced g order b = unplaced g (order ++ [a]) b + if b ∈ g.dependents a then 1 else 0 := by
  have edge : a ∈ g.directDependencies b ↔ b ∈ g.dependents a :=
    mem_directDependencies.trans mem_dependents.symm
  have counted := countP_not_mem_concat (g.nodup_directDependencies b) fresh
  simp only [edge] at counted
  exact counted

/-- A unit whose dependencies stand in the order can be put at its end. -/
theorem dependenciesFirst_concat (first : g.DependenciesFirst order)
    (placed : ∀ b, g.DependsOn a b → b ∈ order) : g.DependenciesFirst (order ++ [a]) := by
  intro before c after split b edge
  rcases List.eq_nil_or_concat after with rfl | ⟨after, d, rfl⟩
  · obtain ⟨rfl, same⟩ := List.append_inj' split rfl
    obtain rfl := List.singleton_inj.mp same
    exact placed b edge
  · rw [List.concat_eq_append, ← List.cons_append, ← List.append_assoc] at split
    obtain ⟨rfl, -⟩ := List.append_inj' split rfl
    exact first before c after rfl b edge

/-- At first all dependencies are unplaced. -/
theorem unplaced_nil (g : DependencyGraph) (a : Address) :
    unplaced g [] a = (g.directDependencies a).length := by
  simp [unplaced]

/-- The invariant holds at the start. -/
theorem invariant_start (g : DependencyGraph) : (start g).Invariant g [] where
  pending a ha := by simp [start, Catalog.get?_tabulate, ha, unplaced_nil]
  known a count h := by
    simp only [start, Catalog.get?_tabulate] at h
    by_contra outside
    simp [outside] at h
  ready_iff a := by
    have counted : (a, (0 : ℤ)) ∈ (start g).pending.entries ↔
        a ∈ g.units.toList ∧ unplaced g [] a = 0 := by
      rw [← Catalog.get?_eq_some_iff]
      simp [start, Catalog.get?_tabulate, unplaced_nil]
    have listed : (start g).ready.get? a = some () ↔ (a, (0 : ℤ)) ∈ (start g).pending.entries := by
      simp [start, Catalog.get?_tabulate]
    rw [listed, counted]
    simp [start]
  nodup := List.nodup_nil
  inside a ha := absurd ha List.not_mem_nil
  dependenciesFirst before a after split := by cases before <;> simp [start] at split
  todo_nodup := List.nodup_nil
  todo_fresh a ha := absurd ha List.not_mem_nil

/-- The unit that is taken is the least that is ready; it is put at the end of the order and no
longer ready. -/
theorem takeReady_eq_some (taken : p.takeReady? = some (a, q)) :
    q.pending = p.pending ∧ q.order = p.order ++ [a] ∧ p.ready.get? a = some () ∧
      (∀ b, q.ready.get? b = if b = a then none else p.ready.get? b) ∧
      ∀ b, p.ready.get? b = some () → b = a ∨ a < b := by
  obtain ⟨⟨first, ready⟩, popped, same⟩ := Option.map_eq_some_iff.mp taken
  obtain ⟨rfl, rfl⟩ := Prod.mk.inj same
  obtain ⟨⟨value, found⟩, rest⟩ := Catalog.get?_of_popFirst? popped
  refine ⟨rfl, rfl, found, rest, ?_⟩
  intro b hb
  by_cases same : b = first
  · exact .inl same
  · exact .inr (Catalog.lt_of_popFirst? popped same hb)

/-- What a unit of the order depends on stands in the order. -/
theorem mem_order_of_dependsOn (first : g.DependenciesFirst order) (placed : a ∈ order)
    (edge : g.DependsOn a b) : b ∈ order := by
  obtain ⟨before, after, split⟩ := List.append_of_mem placed
  have earlier := first before a after split b edge
  rw [split]
  exact List.mem_append_left _ earlier

/-- Taking a unit makes its dependents those for which it has to be counted off. -/
theorem Invariant.take (inv : p.Invariant g []) (taken : p.takeReady? = some (a, q)) :
    q.Invariant g (g.dependents a) := by
  obtain ⟨pending, order, ready, rest, -⟩ := takeReady_eq_some taken
  obtain ⟨unit, fresh, counted, -⟩ := (inv.ready_iff a).mp ready
  have placed := unplaced_eq_zero_iff.mp counted
  refine ⟨?_, ?_, ?_, ?_, ?_, ?_, g.nodup_dependents a, ?_⟩
  -- the dependents of `a` wait for one unit less, but their counts are not taken down yet
  · intro c unitC
    rw [pending, order, inv.pending c unitC, unplaced_concat fresh c]
    by_cases dependent : c ∈ g.dependents a <;> simp [dependent]
  · rw [pending]
    exact inv.known
  · intro c
    have counted := unplaced_concat (g := g) fresh c
    rw [rest, order]
    by_cases same : c = a
    · simp [same]
    · rw [if_neg same, inv.ready_iff c]
      by_cases dependent : c ∈ g.dependents a
      · rw [if_pos dependent] at counted
        simp [dependent, counted]
      · rw [if_neg dependent, Nat.add_zero] at counted
        simp [dependent, counted, same]
  · rw [order, ← List.concat_eq_append]
    exact List.Nodup.concat fresh inv.nodup
  · intro c hc
    rw [order, List.mem_append, List.mem_singleton] at hc
    rcases hc with hc | rfl
    · exact inv.inside c hc
    · exact unit
  · rw [order]
    exact dependenciesFirst_concat inv.dependenciesFirst placed
  · intro c hc
    have edge := mem_dependents_iff.mp hc
    refine ⟨edge.mem_units.1, ?_⟩
    rw [order, List.mem_append, List.mem_singleton]
    rintro (early | rfl)
    · exact fresh (mem_order_of_dependsOn inv.dependenciesFirst early edge)
    · exact fresh (placed c edge)

/-- Counting a unit off for a dependent that waits for it. -/
theorem Invariant.release (inv : p.Invariant g (b :: todo)) : (p.release b).Invariant g todo := by
  obtain ⟨unit, fresh⟩ := inv.todo_fresh b List.mem_cons_self
  obtain ⟨once, distinct⟩ := List.nodup_cons.mp inv.todo_nodup
  have waiting : p.pending.get? b = some ((unplaced g p.order b : ℤ) + 1) := by
    simpa using inv.pending b unit
  have released : p.release b = ⟨p.pending.insert b (unplaced g p.order b : ℤ),
      if (unplaced g p.order b : ℤ) = 0 then p.ready.insert b () else p.ready, p.order⟩ := by
    simp [Placement.release, waiting]
  -- Only the count of `b` changes: it is now what `unplaced` says, and `b` is ready if that is 0.
  rw [released]
  refine ⟨?_, ?_, ?_, inv.nodup, inv.inside, inv.dependenciesFirst, distinct, ?_⟩
  · intro c unitC
    simp only [Catalog.get?_insert]
    by_cases same : c = b
    · simp [same, once]
    · rw [if_neg same, inv.pending c unitC]
      simp [same]
  · intro c count h
    simp only [Catalog.get?_insert] at h
    split at h
    · rename_i same
      exact same ▸ unit
    · exact inv.known c count h
  · intro c
    have ready := inv.ready_iff c
    by_cases same : c = b
    · subst same
      have notReady : p.ready.get? c ≠ some () := fun h => (ready.mp h).2.2.2 List.mem_cons_self
      by_cases last : unplaced g p.order c = 0
      · simp [last, Catalog.get?_insert, unit, fresh, once]
      · simp [last, notReady]
    · have kept : (if (unplaced g p.order b : ℤ) = 0 then p.ready.insert b () else
          p.ready).get? c = p.ready.get? c := by
        split
        · rw [Catalog.get?_insert, if_neg same]
        · rfl
      simp only [kept, ready, List.mem_cons, same, false_or]
  · intro c hc
    exact inv.todo_fresh c (List.mem_cons_of_mem b hc)

/-- The invariant holds in every situation that occurs. -/
theorem Occurs.invariant (h : Occurs g p todo) : p.Invariant g todo := by
  induction h with
  | start => exact invariant_start g
  | take _ taken ih => exact ih.take taken
  | release _ ih => exact ih.release

/-- A situation in which units have yet to be counted off leads to one in which none have. -/
theorem Occurs.foldl_release (h : Occurs g p todo) :
    Occurs g (todo.foldl Placement.release p) [] := by
  induction todo generalizing p with
  | nil => exact h
  | cons b todo ih => exact ih h.release

/-- The situation after a placement occurs. -/
theorem Occurs.next (h : Occurs g p []) (placed : p.next? g = some q) : Occurs g q [] := by
  obtain ⟨⟨a, r⟩, taken, rfl⟩ := Option.map_eq_some_iff.mp placed
  exact (h.take taken).foldl_release

/-- The situation in which no unit is ready any more occurs. -/
theorem Occurs.finish (h : Occurs g p []) :
    Occurs g (p.finish g) [] ∧ (p.finish g).next? g = none := by
  fun_induction Placement.finish g p with
  | case1 p stop => exact ⟨h, stop⟩
  | case2 p q placed ih => exact ih (h.next placed)

/-- Counting off leaves the order as it is. -/
theorem order_release (p : Placement) (b : Address) : (p.release b).order = p.order := by
  unfold release
  split <;> rfl

/-- A unit that is ready is placed, the least of all that are. -/
theorem order_of_next (placed : p.next? g = some q) :
    ∃ a, p.ready.get? a = some () ∧ (∀ b, p.ready.get? b = some () → b = a ∨ a < b) ∧
      q.order = p.order ++ [a] := by
  obtain ⟨⟨a, r⟩, taken, rfl⟩ := Option.map_eq_some_iff.mp placed
  obtain ⟨-, order, ready, -, least⟩ := takeReady_eq_some taken
  have kept (units : List Address) (r : Placement) : (units.foldl release r).order = r.order := by
    induction units generalizing r with
    | nil => rfl
    | cons b units ih => exact (ih (r.release b)).trans (order_release r b)
  exact ⟨a, ready, least, (kept _ r).trans order⟩

/-- When no unit can be placed, none is ready. -/
theorem not_ready_of_next_eq_none (stop : p.next? g = none) (a : Address) :
    p.ready.get? a ≠ some () := by
  have popped : p.ready.popFirst? = none := by
    simpa [next?, takeReady?] using stop
  have entries := Catalog.entries_of_popFirst?_eq_none popped
  rw [Ne, Catalog.get?_eq_some_iff, entries]
  exact List.not_mem_nil

/-- What has been placed stays where it stands. -/
theorem order_prefix_finish (p : Placement) : p.order <+: (p.finish g).order := by
  fun_induction finish g p with
  | case1 p stop => exact List.prefix_refl _
  | case2 p q placed ih =>
    obtain ⟨a, -, -, order⟩ := order_of_next placed
    rw [order] at ih
    exact (List.prefix_append _ _).trans ih

/-- Among finitely many units of an acyclic graph some unit reaches none of them. -/
theorem exists_reaches_none (acyclic : g.IsAcyclic) {units : List Address} (notEmpty : units ≠ []) :
    ∃ a ∈ units, ∀ b ∈ units, ¬ Relation.TransGen g.DependsOn a b := by
  have := acyclic.isStrictOrder
  have wellFounded : {a | a ∈ units}.WellFoundedOn
      (Function.swap (Relation.TransGen g.DependsOn)) := units.finite_toSet.wellFoundedOn
  obtain ⟨c, inside⟩ := List.exists_mem_of_ne_nil units notEmpty
  obtain ⟨⟨a, ha⟩, -, last⟩ := wellFounded.has_min Set.univ ⟨⟨c, inside⟩, trivial⟩
  exact ⟨a, ha, fun b hb => last ⟨b, hb⟩ trivial⟩

/-- Where the graph is acyclic, no unit is left over when none is ready. -/
theorem mem_order_of_stop (acyclic : g.IsAcyclic) (inv : p.Invariant g [])
    (stop : p.next? g = none) (unit : a ∈ g.units.toList) : a ∈ p.order := by
  by_contra left
  have someLeft : g.units.toList.filter (fun b => decide (b ∉ p.order)) ≠ [] := by
    apply List.ne_nil_of_mem (a := a)
    simp [unit, left]
  obtain ⟨b, hb, reachesNone⟩ := exists_reaches_none acyclic someLeft
  simp only [List.mem_filter, decide_eq_true_eq] at hb reachesNone
  refine not_ready_of_next_eq_none stop b ((inv.ready_iff b).mpr ⟨hb.1, hb.2, ?_, by simp⟩)
  rw [unplaced_eq_zero_iff]
  intro c edge
  by_contra missing
  exact reachesNone c ⟨edge.mem_units.2, missing⟩ (.single edge)

/-- Units placed until none is ready are a build order. -/
theorem isBuildOrder_finish (acyclic : g.IsAcyclic) :
    g.IsBuildOrder ((start g).finish g).order := by
  obtain ⟨occurs, stop⟩ := Occurs.finish (Occurs.start (g := g))
  have inv := occurs.invariant
  refine ⟨inv.nodup, fun a => ⟨inv.inside a, ?_⟩, inv.dependenciesFirst⟩
  exact fun unit => mem_order_of_stop acyclic inv stop unit

/-- What a build order that starts with the units placed has next is ready. -/
theorem ready_of_isBuildOrder {other rest : List Address} (inv : p.Invariant g [])
    (valid : g.IsBuildOrder other) (split : other = p.order ++ b :: rest) :
    p.ready.get? b = some () := by
  refine (inv.ready_iff b).mpr ⟨(valid.mem_iff b).mp (by simp [split]), ?_, ?_, by simp⟩
  · intro early
    have distinct := valid.nodup
    rw [split] at distinct
    exact (List.nodup_append.mp distinct).2.2 b early b List.mem_cons_self rfl
  · rw [unplaced_eq_zero_iff]
    exact valid.dependenciesFirst p.order b rest split

/-- Of the build orders that start with the units placed, the one that is found is the least. -/
theorem order_finish_least {other : List Address} (occurs : Occurs g p [])
    (valid : g.IsBuildOrder other) (front : p.order <+: other) :
    other = (p.finish g).order ∨ List.Lex (· < ·) (p.finish g).order other := by
  fun_induction Placement.finish g p with
  | case1 p stop =>
    obtain ⟨rest, split⟩ := front
    cases rest with
    | nil => exact .inl (by rw [← split, List.append_nil])
    | cons b rest =>
      have ready := ready_of_isBuildOrder occurs.invariant valid split.symm
      exact absurd ready (not_ready_of_next_eq_none stop b)
  | case2 p q placed ih =>
    obtain ⟨rest, split⟩ := front
    obtain ⟨a, ready, least, order⟩ := order_of_next placed
    cases rest with
    | nil =>
      obtain ⟨unit, fresh, -⟩ := (occurs.invariant.ready_iff a).mp ready
      rw [List.append_nil] at split
      exact absurd ((valid.mem_iff a).mpr unit) (split ▸ fresh)
    | cons b rest =>
      rcases least b (ready_of_isBuildOrder occurs.invariant valid split.symm) with rfl | less
      · exact ih (occurs.next placed) ⟨rest, by rw [order, ← split]; simp⟩
      · -- here the two part, and what is placed is less than what the other has
        obtain ⟨later, found⟩ := order_prefix_finish (g := g) q
        right
        rw [← found, ← split, order, List.append_assoc]
        exact List.Lex.append_left _ (.rel less) p.order

end Placement

namespace DependencyGraph

/-- A graph in which no cycle is found is acyclic. -/
theorem isAcyclic_of_findCycle {g : DependencyGraph} (h : g.findCycle? = none) : g.IsAcyclic :=
  isAcyclic_iff.mpr (findCycle_eq_none_iff.mp h)

/-- A build order is found exactly for the acyclic graphs. It has every unit once and each after its
dependencies, and of all lists that do so it is the least in the order of lists of addresses. On the
other graphs the failure is the one of the search for a cycle. At no moment, not even between two
units that are counted off, is a count below 0. -/
theorem buildOrder_eq (g : DependencyGraph) :
    ((∃ order, g.buildOrder = .ok order) ↔ g.IsAcyclic) ∧
    (∀ order, g.buildOrder = .ok order → g.IsBuildOrder order ∧
      ∀ other, g.IsBuildOrder other → other = order ∨ List.Lex (· < ·) order other) ∧
    (∀ failure, g.buildOrder.mapError circularity = .error failure ↔
      g.checkAcyclic = .error failure) ∧
    (∀ p todo, Placement.Occurs g p todo →
      ∀ a count, p.pending.get? a = some count → 0 ≤ count) := by
  refine ⟨?_, ?_, ?_, ?_⟩
  · unfold buildOrder
    rcases found : g.findCycle? with _ | cycle
    · exact ⟨fun _ => isAcyclic_of_findCycle found, fun _ => ⟨_, rfl⟩⟩
    · refine ⟨fun ⟨order, h⟩ => by contradiction, fun acyclic => ?_⟩
      rw [findCycle_eq_none_iff.mpr (isAcyclic_iff.mp acyclic)] at found
      contradiction
  · intro order h
    unfold buildOrder at h
    rcases found : g.findCycle? with _ | cycle
    · rw [found] at h
      rw [← Except.ok.inj h]
      refine ⟨Placement.isBuildOrder_finish (isAcyclic_of_findCycle found), ?_⟩
      intro other valid
      exact Placement.order_finish_least .start valid List.nil_prefix
    · rw [found] at h
      contradiction
  · intro failure
    unfold buildOrder checkAcyclic
    rcases g.findCycle? with _ | cycle
    · exact ⟨fun h => by contradiction, fun h => by contradiction⟩
    · simp only [Except.mapError, Except.error.injEq]
  · intro p todo occurs a count h
    -- a count is a number of units that are not placed, and at most one more
    have inv := occurs.invariant
    have counted := inv.pending a (inv.known a count h)
    rw [h, Option.some.injEq] at counted
    rw [counted]
    split <;> omega

end DependencyGraph

end TerraDeps
