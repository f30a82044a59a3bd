import TerraDeps.DependencyGraph.Nodes

/-!
# Gathering what can be reached

The arcs are followed breadth first from the node of a unit. An address that is met for the first
time is kept, and its node waits at the end of the queue until its arcs are followed in turn. The
unit where this starts has not been met itself: it is kept only when some arc leads back to it.
-/

set_option autoImplicit false

namespace TerraDeps

/-- How far the following of arcs has come. -/
structure Gathering where
  /-- The addresses that have been met, in the order of meeting. -/
  met : OrderedSet Address
  /-- The nodes whose arcs have still to be followed, the next one first. -/
  queue : List Nat

namespace Gathering

/-- Meets a node at the end of an arc; only a new address is kept, and its node queued. -/
def meet (n : NodeGraph) (s : Gathering) (j : Nat) : Gathering :=
  match s.met.insertNew (n.label j) with
  | (met, true) => ⟨met, s.queue ++ [j]⟩
  | (met, false) => ⟨met, s.queue⟩

/-- A node whose address has been met changes nothing, and any other joins the addresses met and the
queue. -/
theorem meet_eq (n : NodeGraph) (s : Gathering) (j : Nat) : s.meet n j =
    if n.label j ∈ s.met.toList then s else ⟨s.met.insert (n.label j), s.queue ++ [j]⟩ := by
  rw [meet, OrderedSet.insertNew_eq]
  by_cases old : n.label j ∈ s.met.toList
  · have same : s.met.insert (n.label j) = s.met := by
      rw [OrderedSet.insert, OrderedSet.insertNew_of_mem old]
    simp [old, same]
  · simp [old]

/-- How many of the addresses that can be met have not been. -/
def unmet (n : NodeGraph) (s : Gathering) : Nat :=
  (.ofPath "" :: n.labels).countP fun a => decide (a ∉ s.met.toList)

/-- How many nodes are queued or can still come to be. -/
def remaining (n : NodeGraph) (s : Gathering) : Nat :=
  s.unmet n + s.queue.length

/-- To meet a new address leaves fewer that are unmet. -/
theorem unmet_insert_lt {n : NodeGraph} {s : Gathering} {j : Nat} (queue : List Nat)
    (new : n.label j ∉ s.met.toList) :
    unmet n ⟨s.met.insert (n.label j), queue⟩ < s.unmet n := by
  have inside : n.label j ∈ .ofPath "" :: n.labels := by
    rcases Nat.lt_or_ge j n.labels.length with node | none
    · exact List.mem_cons_of_mem _ (List.mem_of_getElem? (NodeGraph.getElem?_labels node))
    · rw [NodeGraph.label, List.getD_eq_getElem?_getD, List.getElem?_eq_none none]
      exact List.mem_cons_self
  -- the address itself is counted before and not after, any other not more often than before
  obtain ⟨before, after, split⟩ := List.append_of_mem inside
  have fewer (l : List Address) :
      l.countP (fun a => decide (a ∉ (s.met.insert (n.label j)).toList)) ≤
        l.countP fun a => decide (a ∉ s.met.toList) := by
    refine List.countP_mono_left fun a _ fresh => ?_
    rw [decide_eq_true_eq, OrderedSet.mem_toList_insert, not_or] at fresh
    exact decide_eq_true fresh.1
  have counted : decide (n.label j ∉ (s.met.insert (n.label j)).toList) = false :=
    decide_eq_false fun fresh => fresh ((OrderedSet.mem_toList_insert _ _ _).mpr (.inr rfl))
  have less := fewer before
  have less' := fewer after
  simp only [unmet, split, List.countP_append, List.countP_cons, counted, decide_eq_true new,
    if_true, Bool.false_eq_true, if_false]
  omega

/-- To meet a node leaves no more to do than before. -/
theorem remaining_meet_le (n : NodeGraph) (s : Gathering) (j : Nat) :
    (s.meet n j).remaining n ≤ s.remaining n := by
  rw [meet_eq]
  split
  · exact Nat.le_refl _
  · rename_i new
    have less := unmet_insert_lt (s.queue ++ [j]) new
    simp only [remaining, List.length_append, List.length_singleton]
    omega

/-- To meet several nodes leaves no more to do than before. -/
theorem remaining_foldl_meet_le (n : NodeGraph) (s : Gathering) (nodes : List Nat) :
    (nodes.foldl (meet n) s).remaining n ≤ s.remaining n := by
  induction nodes generalizing s with
  | nil => exact Nat.le_refl _
  | cons j nodes ih => exact Nat.le_trans (ih (s.meet n j)) (remaining_meet_le n s j)

/-- Follows arcs until the queue is empty. -/
def finish (n : NodeGraph) (s : Gathering) : OrderedSet Address :=
  match _h : s.queue with
  | [] => s.met
  | i :: queue => finish n ((n.neighbors .outgoing i).foldl (meet n) ⟨s.met, queue⟩)
termination_by s.remaining n
decreasing_by
  refine Nat.lt_of_le_of_lt (remaining_foldl_meet_le n _ _) ?_
  simp only [remaining, unmet, _h, List.length_cons]
  omega

end Gathering

end TerraDeps
