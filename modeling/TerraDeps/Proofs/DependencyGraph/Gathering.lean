import TerraDeps.Proofs.DependencyGraph.Cycles

/-!
# What is gathered is what can be reached

While arcs are followed, the addresses that have been met are kept apart from the nodes that wait in
the queue, and the unit at the start waits without having been met. The `Invariant` ties the three
together: what has been met can be reached by at least one arc, and the start as well as whatever
has been met either waits in the queue or has all its dependencies met. With nothing left in the
queue the addresses met are closed under dependencies, and so they are all that can be reached,
on whatever cycles they lie.
-/

set_option autoImplicit false

namespace TerraDeps

open DependencyGraph

/-- What holds at every moment while all that `a` depends on is gathered. -/
structure Gathering.Invariant (g : DependencyGraph) (a : Address) (s : Gathering) : Prop where
  reached : ∀ b ∈ s.met.toList, Relation.TransGen g.DependsOn a b
  queued : ∀ i ∈ s.queue, i < g.nodes.labels.length ∧
    Relation.ReflTransGen g.DependsOn a (g.nodes.label i)
  closed : ∀ c, c = a ∨ c ∈ s.met.toList →
    (∃ i ∈ s.queue, g.nodes.label i = c) ∨ ∀ b, g.DependsOn c b → b ∈ s.met.toList

namespace Gathering

section Meeting

variable {n : NodeGraph} {s : Gathering} {i j : ℕ} {nodes : List ℕ} {b : Address}

/-- A node whose address has been met changes nothing; any other is met and queued. -/
theorem meet_cases (n : NodeGraph) (s : Gathering) (j : ℕ) :
    (n.label j ∈ s.met.toList ∧ s.meet n j = s) ∨
    ((s.meet n j).queue = s.queue ++ [j] ∧
      ∀ b, b ∈ (s.meet n j).met.toList ↔ b ∈ s.met.toList ∨ b = n.label j) := by
  rw [meet_eq]
  split
  · rename_i old
    exact .inl ⟨old, rfl⟩
  · exact .inr ⟨rfl, OrderedSet.mem_toList_insert s.met (n.label j)⟩

/-- Meeting a node adds its address to those that have been met. -/
theorem mem_met_meet : b ∈ (s.meet n j).met.toList ↔ b ∈ s.met.toList ∨ b = n.label j := by
  obtain ⟨old, same⟩ | ⟨-, met⟩ := meet_cases n s j
  · rw [same]
    exact ⟨.inl, fun either => either.elim id fun new => new ▸ old⟩
  · exact met b

/-- After some nodes their addresses have been met, and no others. -/
theorem mem_met_foldl_meet : b ∈ (nodes.foldl (meet n) s).met.toList ↔
    b ∈ s.met.toList ∨ ∃ j ∈ nodes, n.label j = b := by
  induction nodes generalizing s with
  | nil => simp
  | cons j nodes ih =>
    rw [List.foldl_cons, ih, mem_met_meet, List.exists_mem_cons_iff, or_assoc, eq_comm]

/-- Meeting nodes puts no others in the queue. -/
theorem mem_queue_foldl_meet (h : i ∈ (nodes.foldl (meet n) s).queue) :
    i ∈ s.queue ∨ i ∈ nodes := by
  induction nodes generalizing s with
  | nil => exact .inl h
  | cons j nodes ih =>
    rcases ih h with early | later
    · obtain ⟨-, same⟩ | ⟨queue, -⟩ := meet_cases n s j
      · exact .inl (same ▸ early)
      · rw [queue, List.mem_append, List.mem_singleton] at early
        rcases early with old | rfl
        · exact .inl old
        · exact .inr List.mem_cons_self
    · exact .inr (List.mem_cons_of_mem j later)

/-- Whatever waits goes on waiting. -/
theorem mem_queue_foldl_meet_of_mem (h : i ∈ s.queue) : i ∈ (nodes.foldl (meet n) s).queue := by
  induction nodes generalizing s with
  | nil => exact h
  | cons j nodes ih =>
    refine ih ?_
    obtain ⟨-, same⟩ | ⟨queue, -⟩ := meet_cases n s j
    · rwa [same]
    · rw [queue]
      exact List.mem_append_left [j] h

/-- What is met for the first time waits. -/
theorem waits_of_new (h : b ∈ (nodes.foldl (meet n) s).met.toList) :
    b ∈ s.met.toList ∨ ∃ i ∈ (nodes.foldl (meet n) s).queue, n.label i = b := by
  induction nodes generalizing s with
  | nil => exact .inl h
  | cons j nodes ih =>
    rcases ih h with early | waits
    · obtain ⟨-, same⟩ | ⟨queue, met⟩ := meet_cases n s j
      · exact .inl (same ▸ early)
      · rcases (met b).mp early with old | rfl
        · exact .inl old
        · have last : j ∈ (s.meet n j).queue := by
            rw [queue]
            exact List.mem_append_right s.queue (List.mem_singleton_self j)
          exact .inr ⟨j, mem_queue_foldl_meet_of_mem (s := s.meet n j) last, rfl⟩
    · exact .inr waits

end Meeting

variable {g : DependencyGraph} {a b : Address} {s : Gathering} {i : ℕ} {queue : List ℕ}

/-- A unit depends on those to whose nodes the arcs from its own lead. -/
theorem dependsOn_label_iff (node : i < g.nodes.labels.length) :
    g.DependsOn (g.nodes.label i) b ↔
      ∃ j ∈ g.nodes.neighbors .outgoing i, g.nodes.label j = b :=
  (exists_mem_neighbors_iff (d := .outgoing) (NodeGraph.getElem?_labels node)).symm

/-- The invariant holds at the start, with the unit's own node in the queue. -/
theorem invariant_start (stands : g.nodes.labels[i]? = some a) :
    Invariant g a ⟨.empty, [i]⟩ where
  reached b inside := absurd inside List.not_mem_nil
  queued j waits := by
    obtain rfl := List.mem_singleton.mp waits
    rw [NodeGraph.label_eq stands]
    exact ⟨(List.getElem?_eq_some_iff.mp stands).1, .refl⟩
  closed c known := by
    rcases known with rfl | inside
    · exact .inl ⟨i, List.mem_singleton_self i, NodeGraph.label_eq stands⟩
    · exact absurd inside List.not_mem_nil

/-- Following the arcs of the node that waits first keeps the invariant. -/
theorem Invariant.follow (inv : Invariant g a s) (first : s.queue = i :: queue) :
    Invariant g a ((g.nodes.neighbors .outgoing i).foldl (meet g.nodes) ⟨s.met, queue⟩) := by
  obtain ⟨node, reach⟩ := inv.queued i (first ▸ List.mem_cons_self)
  refine ⟨fun b met => ?_, fun j waits => ?_, fun c known => ?_⟩
  · rcases mem_met_foldl_meet.mp met with old | new
    · exact inv.reached b old
    · exact Relation.TransGen.tail' reach ((dependsOn_label_iff node).mpr new)
  · rcases mem_queue_foldl_meet waits with old | new
    · exact inv.queued j (first ▸ List.mem_cons_of_mem i old)
    · refine ⟨(g.isConsistent.lt_of_mem_neighbors new).2, ?_⟩
      exact reach.tail ((dependsOn_label_iff node).mpr ⟨j, new, rfl⟩)
  · -- what was known before waited, at the head of the queue or behind it, or was closed
    have before : c = a ∨ c ∈ s.met.toList →
        (∃ k ∈ ((g.nodes.neighbors .outgoing i).foldl (meet g.nodes) ⟨s.met, queue⟩).queue,
          g.nodes.label k = c) ∨ ∀ b, g.DependsOn c b →
          b ∈ ((g.nodes.neighbors .outgoing i).foldl (meet g.nodes) ⟨s.met, queue⟩).met.toList := by
      intro known
      rcases inv.closed c known with ⟨k, waits, rfl⟩ | closed
      · rw [first] at waits
        rcases List.mem_cons.mp waits with rfl | behind
        · right
          exact fun b edge => mem_met_foldl_meet.mpr (.inr ((dependsOn_label_iff node).mp edge))
        · exact .inl ⟨k, mem_queue_foldl_meet_of_mem behind, rfl⟩
      · exact .inr fun b edge => mem_met_foldl_meet.mpr (.inl (closed b edge))
    rcases known with start | met
    · exact before (.inl start)
    · rcases waits_of_new met with old | waits
      · exact before (.inr old)
      · exact .inl waits

/-- Once nothing waits, all that can be reached has been met. -/
theorem Invariant.mem_met_of_transGen (inv : Invariant g a s) (done : s.queue = [])
    (reach : Relation.TransGen g.DependsOn a b) : b ∈ s.met.toList := by
  have closed (c : Address) (known : c = a ∨ c ∈ s.met.toList) (b : Address)
      (edge : g.DependsOn c b) : b ∈ s.met.toList := by
    rcases inv.closed c known with ⟨i, waits, -⟩ | closed
    · rw [done] at waits
      exact absurd waits List.not_mem_nil
    · exact closed b edge
  induction reach with
  | single edge => exact closed a (.inl rfl) _ edge
  | tail _ edge ih => exact closed _ (.inr ih) _ edge

/-- What has been met in the end is what the unit reaches along edges. -/
theorem Invariant.mem_finish_iff (inv : Invariant g a s) :
    b ∈ (finish g.nodes s).toList ↔ Relation.TransGen g.DependsOn a b := by
  fun_induction finish g.nodes s with
  | case1 s done => exact ⟨inv.reached b, inv.mem_met_of_transGen done⟩
  | case2 s i queue first ih => exact ih (inv.follow first)

end Gathering

namespace DependencyGraph

variable {g : DependencyGraph} {a b : Address}

/-- The dependencies gathered from a unit are what it reaches by at least one edge. -/
theorem mem_transitiveDependencies_iff :
    b ∈ g.transitiveDependencies a ↔ Relation.TransGen g.DependsOn a b := by
  unfold transitiveDependencies
  cases found : g.nodes.nodeOf.get? a with
  | some i => exact (Gathering.invariant_start (get?_nodeOf_eq_some_iff.mp found)).mem_finish_iff
  | none =>
    refine ⟨fun inside => absurd inside List.not_mem_nil, fun reach => ?_⟩
    obtain ⟨c, edge, -⟩ := Relation.TransGen.head'_iff.mp reach
    obtain ⟨i, stands⟩ := List.getElem?_of_mem edge.mem_units.1
    rw [get?_nodeOf_eq_some_iff.mpr stands] at found
    contradiction

/-- No transitive dependency is listed twice. -/
theorem nodup_transitiveDependencies (g : DependencyGraph) (a : Address) :
    (g.transitiveDependencies a).Nodup := by
  unfold transitiveDependencies
  cases g.nodes.nodeOf.get? a with
  | some i => exact OrderedSet.nodup _
  | none => exact List.nodup_nil

/-- A path along edges leads from the unit back to it. -/
def LiesOnCycle (g : DependencyGraph) (a : Address) : Prop :=
  ∃ between, (a :: (between ++ [a])).IsChain g.DependsOn

/-- A unit lies on a cycle exactly when it reaches itself along edges. -/
theorem liesOnCycle_iff : g.LiesOnCycle a ↔ Relation.TransGen g.DependsOn a a := by
  rw [Relation.TransGen.head'_iff]
  constructor
  · rintro ⟨between, chain⟩
    have notEmpty : between ++ [a] ≠ [] := by simp
    obtain ⟨b, rest, split⟩ := List.exists_cons_of_ne_nil notEmpty
    rw [split, List.isChain_cons_cons] at chain
    refine ⟨b, chain.1, List.relationReflTransGen_of_exists_isChain_cons rest chain.2 ?_⟩
    simp only [← split, List.getLast_concat]
  · rintro ⟨b, edge, reach⟩
    obtain ⟨rest, chain, last⟩ := List.exists_isChain_cons_of_relationReflTransGen reach
    refine ⟨(b :: rest).dropLast, ?_⟩
    have whole : (b :: rest).dropLast ++ [a] = b :: rest := by
      rw [← last, List.dropLast_concat_getLast]
    rw [whole, List.isChain_cons_cons]
    exact ⟨edge, chain⟩

/-- What is gathered for an address, on any graph, are the units that it reaches by one edge or
more, each once: none for an address that is no unit, and the address itself exactly when it lies on
a cycle. -/
theorem transitiveDependencies_spec (g : DependencyGraph) (a : Address) :
    (∀ b, b ∈ g.transitiveDependencies a ↔ Relation.TransGen g.DependsOn a b) ∧
    (g.transitiveDependencies a).Nodup ∧
    (∀ b ∈ g.transitiveDependencies a, b ∈ g.units.toList) ∧
    (a ∉ g.units.toList → g.transitiveDependencies a = []) ∧
    (a ∈ g.transitiveDependencies a ↔ g.LiesOnCycle a) := by
  refine ⟨fun b => mem_transitiveDependencies_iff, g.nodup_transitiveDependencies a, ?_, ?_, ?_⟩
  · intro b gathered
    obtain ⟨c, -, edge⟩ :=
      Relation.TransGen.tail'_iff.mp (mem_transitiveDependencies_iff.mp gathered)
    exact edge.mem_units.2
  · intro noUnit
    refine List.eq_nil_iff_forall_not_mem.mpr fun b gathered => noUnit ?_
    obtain ⟨c, edge, -⟩ :=
      Relation.TransGen.head'_iff.mp (mem_transitiveDependencies_iff.mp gathered)
    exact edge.mem_units.1
  · exact mem_transitiveDependencies_iff.trans liesOnCycle_iff.symm

/-- Two units that depend on each other, and an address that is no unit. -/
theorem transitiveDependencies_spec_mutual :
    let a := Address.ofPath "a"
    let b := Address.ofPath "b"
    let c := Address.ofPath "c"
    let g := (empty.addDependency a b).addDependency b a
    c ∉ g.units.toList ∧ g.transitiveDependencies c = [] ∧
      g.LiesOnCycle a ∧ a ∈ g.transitiveDependencies a := by
  intro a b c g
  have noUnit : c ∉ g.units.toList := by decide
  have cycle : g.LiesOnCycle a := by
    have edges : (a, b) ∈ g.edges.toList ∧ (b, a) ∈ g.edges.toList := by decide
    exact ⟨[b], .cons_cons edges.1 (.cons_cons edges.2 (.singleton a))⟩
  obtain ⟨-, -, -, unknown, -⟩ := transitiveDependencies_spec g c
  obtain ⟨-, -, -, -, onCycle⟩ := transitiveDependencies_spec g a
  exact ⟨noUnit, unknown noUnit, cycle, onCycle.mpr cycle⟩

end DependencyGraph

end TerraDeps
