import Mathlib.Data.List.Chain
import Mathlib.Data.List.Nodup
import Mathlib.Logic.Relation
import Mathlib.Order.Bounds.Defs
import TerraDeps.DependencyGraph

/-!
# Cycles of a dependency graph

A unit *leads to a cycle* when some unit that it reaches reaches itself again; a dependency of a
unit on itself counts. Such a unit always has a dependency of the same kind, so that one can walk on
from it for ever. The *least walk* starts at the least unit that leads to a cycle, goes on to the
least dependency that does, and stops when a unit comes again. The part between the two comings is
the *least cycle*. All this is said with `DependsOn` alone: it does not matter how a graph was
built.
-/

set_option autoImplicit false

namespace TerraDeps.DependencyGraph

/-- The graph has an edge from `a` to `b`. -/
def DependsOn (g : DependencyGraph) (a b : Address) : Prop :=
  (a, b) ∈ g.edges.toList

/-- Some unit that `a` reaches, `a` among them, reaches itself again. -/
def LeadsToCycle (g : DependencyGraph) (a : Address) : Prop :=
  ∃ c, Relation.ReflTransGen g.DependsOn a c ∧ Relation.TransGen g.DependsOn c c

/-- No unit reaches itself again. -/
def IsAcyclic (g : DependencyGraph) : Prop :=
  ∀ a, ¬ Relation.TransGen g.DependsOn a a

/-- Of the dependencies of `a` that lead to a cycle, `b` is the least. -/
def LeastStep (g : DependencyGraph) (a b : Address) : Prop :=
  IsLeast {c | g.DependsOn a c ∧ g.LeadsToCycle c} b

/-- The walk by least steps from the least unit that leads to a cycle, up to the first unit that
comes again, which is `last`. -/
@[mk_iff]
structure IsLeastWalk (g : DependencyGraph) (walk : List Address) (last : Address) : Prop where
  start : ∃ a ∈ walk.head?, IsLeast {a | g.LeadsToCycle a} a
  steps : (walk ++ [last]).IsChain g.LeastStep
  nodup : walk.Nodup
  repeats : last ∈ walk

/-- The part of the least walk from the first to the second coming of the unit that comes again. -/
def IsLeastCycle (g : DependencyGraph) (cycle : List Address) : Prop :=
  ∃ before a between, g.IsLeastWalk (before ++ a :: between) a ∧ cycle = a :: (between ++ [a])

variable {g : DependencyGraph} {a b : Address}

/-- Both a unit that depends on another and the other are units of the graph. -/
theorem DependsOn.mem_units (h : g.DependsOn a b) : a ∈ g.units.toList ∧ b ∈ g.units.toList :=
  g.endsAreUnits (a, b) h

/-- The direct dependencies of a unit are the units that it depends on. -/
theorem mem_directDependencies_iff : b ∈ g.directDependencies a ↔ g.DependsOn a b :=
  mem_directDependencies

/-- The dependents of a unit are the units that depend on it. -/
theorem mem_dependents_iff : b ∈ g.dependents a ↔ g.DependsOn b a :=
  mem_dependents

/-- A unit that leads to a cycle is a unit of the graph: it is where an edge starts. -/
theorem LeadsToCycle.mem_units (h : g.LeadsToCycle a) : a ∈ g.units.toList := by
  obtain ⟨c, reach, cycle⟩ := h
  obtain ⟨b, edge, -⟩ := Relation.TransGen.head'_iff.mp (Relation.TransGen.trans_right reach cycle)
  exact edge.mem_units.1

/-- What leads to a cycle is what depends on something that does. -/
theorem leadsToCycle_iff_exists_dependency :
    g.LeadsToCycle a ↔ ∃ b, g.DependsOn a b ∧ g.LeadsToCycle b := by
  constructor
  · rintro ⟨c, reach, cycle⟩
    rcases reach.cases_head with rfl | ⟨b, edge, rest⟩
    · obtain ⟨b, edge, rest⟩ := Relation.TransGen.head'_iff.mp cycle
      exact ⟨b, edge, a, rest, cycle⟩
    · exact ⟨b, edge, c, rest, cycle⟩
  · rintro ⟨b, edge, c, reach, cycle⟩
    exact ⟨c, reach.head edge, cycle⟩

/-- What depends on a unit that leads to a cycle leads to one itself. -/
theorem LeadsToCycle.of_dependsOn (edge : g.DependsOn a b) (h : g.LeadsToCycle b) :
    g.LeadsToCycle a :=
  leadsToCycle_iff_exists_dependency.mpr ⟨b, edge, h⟩

/-- A graph is acyclic exactly when no unit leads to a cycle. -/
theorem isAcyclic_iff : g.IsAcyclic ↔ ∀ a, ¬ g.LeadsToCycle a := by
  constructor
  · rintro acyclic a ⟨c, -, cycle⟩
    exact acyclic c cycle
  · intro harmless a cycle
    exact harmless a ⟨a, .refl, cycle⟩

/-- Reaching by edges is a strict order where it leads no unit back to itself, so that among
finitely many units it comes to an end in either direction. -/
theorem IsAcyclic.isStrictOrder (acyclic : g.IsAcyclic) :
    IsStrictOrder Address (Relation.TransGen g.DependsOn) where
  irrefl := acyclic
  trans _ _ _ := Relation.TransGen.trans

/-- A path whose last unit depends on one of the path's units goes in a circle. -/
theorem leadsToCycle_of_chain {path : List Address} (chain : (path ++ [b]).IsChain g.DependsOn)
    (again : b ∈ path) : g.LeadsToCycle b := by
  obtain ⟨before, between, rfl⟩ := List.append_of_mem again
  have circle : (b :: (between ++ [b])).IsChain g.DependsOn := by
    apply chain.suffix
    exact ⟨before, by simp⟩
  obtain ⟨c, edge, rest⟩ : ∃ c, g.DependsOn b c ∧ Relation.ReflTransGen g.DependsOn c b := by
    cases between with
    | nil => exact ⟨b, by simpa using circle, .refl⟩
    | cons c between =>
      rw [List.cons_append, List.isChain_cons_cons] at circle
      refine ⟨c, circle.1, ?_⟩
      exact List.relationReflTransGen_of_exists_isChain_cons _ circle.2 (by simp)
  exact ⟨b, .refl, Relation.TransGen.head' edge rest⟩

/-- The least step from a unit is one of its dependencies. -/
theorem LeastStep.dependsOn (h : g.LeastStep a b) : g.DependsOn a b :=
  h.1.1

/-- A set has one least address. -/
theorem isLeast_unique {s : Set Address} (ha : IsLeast s a) (hb : IsLeast s b) : a = b :=
  Address.le_antisymm (ha.2 hb.1) (hb.2 ha.1)

/-- There is one least step from a unit. -/
theorem LeastStep.unique {c : Address} (hb : g.LeastStep a b) (hc : g.LeastStep a c) : b = c :=
  isLeast_unique hb hc

/-! ## The walk step by step -/

/-- A list is split in one way only where an element stands first. -/
theorem split_unique {before between before' between' : List Address} (fresh : a ∉ before)
    (fresh' : a ∉ before') (same : before ++ a :: between = before' ++ a :: between') :
    between = between' := by
  induction before generalizing before' with
  | nil =>
    cases before' with
    | nil => exact (List.cons.inj same).2
    | cons c before' =>
      obtain ⟨rfl, -⟩ := List.cons.inj same
      exact absurd List.mem_cons_self fresh'
  | cons b before ih =>
    cases before' with
    | nil =>
      obtain ⟨rfl, -⟩ := List.cons.inj same
      exact absurd List.mem_cons_self fresh
    | cons c before' =>
      exact ih (fun later => fresh (List.mem_cons_of_mem b later))
        (fun later => fresh' (List.mem_cons_of_mem c later)) (List.cons.inj same).2

/-- The walk by least steps that has passed `path` and stands at `a` closes the cycle. -/
inductive Closes (g : DependencyGraph) : List Address → Address → List Address → Prop
  | again {before between : List Address} {a : Address} (fresh : a ∉ before) :
      Closes g (before ++ a :: between) a (a :: (between ++ [a]))
  | step {path cycle : List Address} {a b : Address} (fresh : a ∉ path) (next : g.LeastStep a b)
      (rest : Closes g (path ++ [a]) b cycle) : Closes g path a cycle

/-- A walk that has come back goes on to a walk without a repetition before its end. -/
theorem Closes.exists_walk {path cycle : List Address} (h : g.Closes path a cycle)
    (nodup : path.Nodup) (steps : (path ++ [a]).IsChain g.LeastStep) :
    ∃ before last between, path ++ [a] <+: before ++ last :: (between ++ [last]) ∧
      (before ++ last :: (between ++ [last])).IsChain g.LeastStep ∧
      (before ++ last :: between).Nodup ∧ cycle = last :: (between ++ [last]) := by
  induction h with
  | @again before between a fresh =>
    exact ⟨before, a, between, by simp, by simpa using steps, nodup, rfl⟩
  | @step path cycle a b fresh next rest ih =>
    have longer := List.Nodup.concat fresh nodup
    rw [List.concat_eq_append] at longer
    have further : (path ++ [a] ++ [b]).IsChain g.LeastStep := by
      apply steps.append (List.isChain_singleton b)
      intro c hc d hd
      simp only [List.getLast?_concat, List.head?_cons, Option.mem_def, Option.some.injEq] at hc hd
      exact hc ▸ hd ▸ next
    obtain ⟨before, last, between, isFront, chain, distinct, same⟩ := ih longer further
    exact ⟨before, last, between, (List.prefix_append _ _).trans isFront, chain, distinct, same⟩

/-- The steps are determined, and so is the cycle. -/
theorem Closes.unique {path cycle cycle' : List Address} (h : g.Closes path a cycle)
    (h' : g.Closes path a cycle') : cycle = cycle' := by
  induction h with
  | @again before between a fresh =>
    generalize split : before ++ a :: between = path at h'
    cases h' with
    | again fresh' =>
      rw [split_unique fresh fresh' split]
    | step fresh' =>
      subst split
      simp at fresh'
  | @step path cycle a b fresh next rest ih =>
    cases h' with
    | again => simp at fresh
    | step _ next' rest' =>
      obtain rfl := next.unique next'
      exact ih rest'

/-- A walk by least steps that comes back closes its cycle, wherever one joins it. -/
theorem closes_of_walk {before between walk : List Address} {last : Address}
    (steps : (walk ++ [last]).IsChain g.LeastStep) (nodup : walk.Nodup)
    (split : walk = before ++ last :: between) {passed ahead : List Address}
    (joined : walk ++ [last] = passed ++ a :: ahead) :
    g.Closes passed a (last :: (between ++ [last])) := by
  -- Induction on what is ahead of `a`; what is passed and `a` stand in the walk without repetition.
  induction ahead generalizing passed a with
  | nil =>
    obtain ⟨rfl, same⟩ := List.append_inj' joined rfl
    obtain rfl := List.singleton_inj.mp same
    subst split
    refine .again fun earlier => ?_
    exact (List.nodup_append.mp nodup).2.2 _ earlier _ List.mem_cons_self rfl
  | cons b ahead ih =>
    have next : g.LeastStep a b := by
      rw [joined] at steps
      exact (List.isChain_cons_cons.mp steps.right_of_append).1
    have front : passed ++ [a] <+: walk := by
      have longer : passed ++ [a] <+: walk ++ [last] :=
        ⟨b :: ahead, by rw [joined, List.append_assoc, List.singleton_append]⟩
      apply List.prefix_of_prefix_length_le longer (List.prefix_append walk [last])
      have lengths := congrArg List.length joined
      simp only [List.length_append, List.length_cons, List.length_nil] at lengths ⊢
      omega
    have fresh : a ∉ passed := by
      intro earlier
      have distinct := (List.nodup_append.mp (nodup.sublist front.sublist)).2.2
      exact distinct a earlier a (by simp) rfl
    refine .step fresh next (ih ?_)
    rw [joined, List.append_assoc, List.singleton_append]

/-- The least cycle is what the walk from the least unit that leads to a cycle closes. -/
theorem isLeastCycle_iff {cycle : List Address} :
    g.IsLeastCycle cycle ↔ ∃ a, IsLeast {a | g.LeadsToCycle a} a ∧ g.Closes [] a cycle := by
  constructor
  · rintro ⟨before, last, between, walk, rfl⟩
    obtain ⟨a, head, least⟩ := walk.start
    obtain ⟨rest, front⟩ : ∃ rest, before ++ last :: between = a :: rest :=
      List.head?_eq_some_iff.mp head
    have joined : before ++ last :: between ++ [last] = [] ++ a :: (rest ++ [last]) := by
      rw [front]
      rfl
    exact ⟨a, least, closes_of_walk walk.steps walk.nodup rfl joined⟩
  · rintro ⟨a, least, closes⟩
    obtain ⟨before, last, between, front, steps, nodup, rfl⟩ :=
      closes.exists_walk List.nodup_nil (List.isChain_singleton a)
    refine ⟨before, last, between, ⟨⟨a, ?_, least⟩, by simpa using steps, nodup, by simp⟩, rfl⟩
    cases before with
    | nil =>
      obtain rfl : a = last := by simpa using front
      rfl
    | cons b before =>
      obtain rfl : a = b := by simpa using front
      rfl

/-- There is one least cycle. -/
theorem IsLeastCycle.unique {cycle cycle' : List Address} (h : g.IsLeastCycle cycle)
    (h' : g.IsLeastCycle cycle') : cycle = cycle' := by
  obtain ⟨a, least, closes⟩ := isLeastCycle_iff.mp h
  obtain ⟨a', least', closes'⟩ := isLeastCycle_iff.mp h'
  obtain rfl := isLeast_unique least least'
  exact closes.unique closes'

/-- The least cycle goes along edges and comes back to its start at its end and not before. -/
theorem IsLeastCycle.exists_eq {cycle : List Address} (h : g.IsLeastCycle cycle) :
    ∃ a between, cycle = a :: (between ++ [a]) ∧ (a :: between).Nodup ∧
      cycle.IsChain g.DependsOn := by
  obtain ⟨before, a, between, walk, rfl⟩ := h
  refine ⟨a, between, rfl, walk.nodup.sublist (List.sublist_append_right _ _), ?_⟩
  have steps := walk.steps
  rw [List.append_assoc] at steps
  exact steps.right_of_append.imp fun _ _ step => step.dependsOn

/-- Which cycle is the least depends on the edges alone. -/
theorem isLeastCycle_congr {h : DependencyGraph} (same : ∀ a b, h.DependsOn a b ↔ g.DependsOn a b)
    (cycle : List Address) : h.IsLeastCycle cycle ↔ g.IsLeastCycle cycle := by
  have edges : h.DependsOn = g.DependsOn := by
    funext a b
    exact propext (same a b)
  have leads : h.LeadsToCycle = g.LeadsToCycle := by
    funext a
    simp only [LeadsToCycle, edges]
  have steps : h.LeastStep = g.LeastStep := by
    funext a b
    simp only [LeastStep, edges, leads]
  unfold IsLeastCycle
  simp only [isLeastWalk_iff, leads, steps]

end TerraDeps.DependencyGraph
