import TerraDeps.DependencyGraph.CycleSearch
import TerraDeps.Proofs.DependencyGraph.Cycles

/-!
# The search for a cycle finds the least cycle

What holds throughout the search is its `Invariant`: the gray units are exactly the path, each unit
of the path depends on the next, and no black unit leads to a cycle. Hence the visit of a unit that
leads to no cycle comes back with the same path, so that nothing is missed by passing over it, and
the visit of any other unit goes down by a least step; it ends where the least walk does.
-/

set_option autoImplicit false

namespace TerraDeps

open DependencyGraph

/-- What holds at every moment of the search of `g`. -/
structure CycleSearch.Invariant (g : DependencyGraph) (s : CycleSearch) : Prop where
  known : ∀ a ∈ g.units.toList, ∃ color, s.colors.get? a = some color
  gray_iff : ∀ a, s.colors.get? a = some .gray ↔ a ∈ s.path
  nodup : s.path.Nodup
  chain : s.path.IsChain g.DependsOn
  black : ∀ a, s.colors.get? a = some .black → ¬ g.LeadsToCycle a

namespace CycleSearch

variable {g : DependencyGraph} {s t : CycleSearch} {a : Address}

/-- The invariant holds at the start. -/
theorem invariant_start (g : DependencyGraph) : (start g).Invariant g where
  known a ha := ⟨.white, by simp [start, Catalog.get?_tabulate, ha]⟩
  gray_iff a := by simp [start, Catalog.get?_tabulate]
  nodup := List.nodup_nil
  chain := List.isChain_nil
  black a h := by simp [start, Catalog.get?_tabulate] at h

/-- Beginning the visit of a white unit on which the path goes on keeps the invariant. -/
theorem Invariant.enter (inv : s.Invariant g) (white : s.colors.get? a = some .white)
    (chain : (s.path ++ [a]).IsChain g.DependsOn) : (s.enter a).Invariant g where
  known b hb := by
    simp only [CycleSearch.enter, Catalog.get?_insert]
    split
    · exact ⟨.gray, rfl⟩
    · exact inv.known b hb
  gray_iff b := by
    simp only [CycleSearch.enter, Catalog.get?_insert, List.mem_append, List.mem_singleton]
    split
    · rename_i same
      simp [same]
    · rename_i different
      simp [different, inv.gray_iff b]
  nodup := by
    have fresh : a ∉ s.path := by
      intro passed
      rw [(inv.gray_iff a).mpr passed] at white
      contradiction
    have longer := List.Nodup.concat fresh inv.nodup
    rwa [List.concat_eq_append] at longer
  chain := chain
  black b h := by
    simp only [CycleSearch.enter, Catalog.get?_insert] at h
    split at h
    · contradiction
    · exact inv.black b h

/-- Ending the visit of the last unit of the path, which leads to no cycle, keeps the invariant. -/
theorem Invariant.leave {path : List Address} (inv : t.Invariant g) (last : t.path = path ++ [a])
    (harmless : ¬ g.LeadsToCycle a) : (t.leave a).Invariant g where
  known b hb := by
    simp only [CycleSearch.leave, Catalog.get?_insert]
    split
    · exact ⟨.black, rfl⟩
    · exact inv.known b hb
  gray_iff b := by
    have nodup := inv.nodup
    rw [last, List.nodup_append] at nodup
    have gray := inv.gray_iff b
    rw [last, List.mem_append, List.mem_singleton] at gray
    simp only [CycleSearch.leave, Catalog.get?_insert, last, List.dropLast_concat]
    split
    · rename_i same
      have gone : b ∉ path := fun passed => nodup.2.2 b passed a (by simp) same
      simp [gone]
    · rename_i different
      simpa [different] using gray
  nodup := by
    have nodup := inv.nodup
    simp only [CycleSearch.leave]
    exact nodup.sublist (List.dropLast_sublist _)
  chain := inv.chain.dropLast
  black b h := by
    simp only [CycleSearch.leave, Catalog.get?_insert] at h
    split at h
    · rename_i same
      exact same ▸ harmless
    · exact inv.black b h

/-- Leaving the last unit of the path takes it off the path. -/
theorem path_leave {path : List Address} (last : t.path = path ++ [a]) :
    (t.leave a).path = path := by
  simp [CycleSearch.leave, last]

/-- A unit that leads to a cycle is never black. -/
theorem Invariant.color_of_leadsToCycle (inv : s.Invariant g) (h : g.LeadsToCycle a) :
    s.colors.get? a = some .white ∨ s.colors.get? a = some .gray := by
  obtain ⟨color, known⟩ := inv.known a h.mem_units
  cases color with
  | white => exact .inl known
  | gray => exact .inr known
  | black => exact absurd h (inv.black a known)

/-- A gray unit on which the path goes on leads to a cycle. -/
theorem Invariant.leadsToCycle_of_gray (inv : s.Invariant g)
    (chain : (s.path ++ [a]).IsChain g.DependsOn) (gray : s.colors.get? a = some .gray) :
    g.LeadsToCycle a :=
  leadsToCycle_of_chain chain ((inv.gray_iff a).mp gray)

/-- The cycle that a unit of the path closes is the path from this unit on, and the unit again. -/
theorem closing_append {before between : List Address} (path : s.path = before ++ a :: between)
    (fresh : a ∉ before) : s.closing a = a :: (between ++ [a]) := by
  have place : s.path.idxOf? a = some before.length := by
    rw [path]
    clear path
    induction before with
    | nil => simp [List.idxOf?_cons]
    | cons b before ih =>
      have different : (b == a) = false := by
        apply beq_eq_false_iff_ne.mpr
        rintro rfl
        exact fresh List.mem_cons_self
      simp [List.idxOf?_cons, different, ih fun later => fresh (List.mem_cons_of_mem b later)]
  rw [closing, place, Option.getD_some, path, List.drop_left, List.cons_append]

end CycleSearch

namespace DependencyGraph

/-- What the visit of a white unit on which the path goes on comes to. -/
structure Visits (g : DependencyGraph) (s : CycleSearch) (a : Address) : Prop where
  passes : ¬ g.LeadsToCycle a → ∃ t, g.visit s a = .ok t ∧ t.Invariant g ∧ t.path = s.path
  finds : g.LeadsToCycle a → ∃ cycle, g.visit s a = .error cycle ∧ g.Closes s.path a cycle

/-- What the visits of units on which the path goes on come to: the first unit among them that leads
to a cycle decides. -/
structure Explores (g : DependencyGraph) (s : CycleSearch) (units : List Address) : Prop where
  passes : (∀ b ∈ units, ¬ g.LeadsToCycle b) →
    ∃ t, g.visitEach s units = .ok t ∧ t.Invariant g ∧ t.path = s.path
  finds : ∀ before b after, units = before ++ b :: after → (∀ c ∈ before, ¬ g.LeadsToCycle c) →
    g.LeadsToCycle b → ∃ cycle, g.visitEach s units = .error cycle ∧ g.Closes s.path b cycle

variable {g : DependencyGraph} {s : CycleSearch} {a : Address} {units : List Address}

/-- In a list with a unit that leads to a cycle there is a first one. -/
theorem exists_first_leadsToCycle (h : ∃ b ∈ units, g.LeadsToCycle b) :
    ∃ before b after, units = before ++ b :: after ∧ (∀ c ∈ before, ¬ g.LeadsToCycle c) ∧
      g.LeadsToCycle b := by
  classical
  obtain ⟨b, found⟩ := Option.isSome_iff_exists.mp
    (List.find?_isSome.mpr (show ∃ b ∈ units, decide (g.LeadsToCycle b) = true by simpa using h))
  obtain ⟨leads, before, after, split, harmless⟩ := List.find?_eq_some_iff_append.mp found
  exact ⟨before, b, after, split, by simpa using harmless, by simpa using leads⟩

/-- Among units in ascending order the first that leads to a cycle is the least. -/
theorem isLeast_first {p : Address → Prop} {before after : List Address} {b : Address}
    (ascend : (before ++ b :: after).Pairwise fun a b => a ≤ b) (fails : ∀ c ∈ before, ¬ p c)
    (first : p b) : IsLeast {c | c ∈ before ++ b :: after ∧ p c} b := by
  refine ⟨⟨by simp, first⟩, ?_⟩
  rintro c ⟨inside, hc⟩
  rcases List.mem_append.mp inside with earlier | later
  · exact absurd hc (fails c earlier)
  · rcases List.mem_cons.mp later with rfl | later
    · exact Address.le_refl c
    · exact (List.pairwise_cons.mp (List.pairwise_append.mp ascend).2.1).1 c later

/-- The direct dependencies of a unit ascend. -/
theorem pairwise_directDependencies (g : DependencyGraph) (a : Address) :
    (g.directDependencies a).Pairwise fun b c => b ≤ c :=
  g.pairwise_neighborsOf .outgoing a

/-- The path goes on from its last unit to each dependency of it. -/
theorem isChain_concat_dependency {path : List Address} {b : Address}
    (chain : (path ++ [a]).IsChain g.DependsOn) (edge : g.DependsOn a b) :
    (path ++ [a] ++ [b]).IsChain g.DependsOn := by
  apply chain.append (List.isChain_singleton b)
  intro c hc d hd
  simp only [List.getLast?_concat, List.head?_cons, Option.mem_def, Option.some.injEq] at hc hd
  exact hc ▸ hd ▸ edge

/-- A visit comes to what the visits of the unit's dependencies come to. -/
theorem visits_of_explores (inv : s.Invariant g) (white : s.colors.get? a = some .white)
    (chain : (s.path ++ [a]).IsChain g.DependsOn)
    (dependencies : (s.enter a).Invariant g →
      (∀ b ∈ g.directDependencies a, ((s.enter a).path ++ [b]).IsChain g.DependsOn) →
      (∀ b ∈ g.directDependencies a, b ∈ g.units.toList) →
      g.Explores (s.enter a) (g.directDependencies a)) : g.Visits s a := by
  have explored : g.Explores (s.enter a) (g.directDependencies a) := by
    apply dependencies (inv.enter white chain)
    · intro b hb
      exact isChain_concat_dependency chain (mem_directDependencies_iff.mp hb)
    · intro b hb
      exact (mem_directDependencies_iff.mp hb).mem_units.2
  constructor
  · intro harmless
    have noneLeads : ∀ b ∈ g.directDependencies a, ¬ g.LeadsToCycle b := by
      intro b hb leads
      exact harmless (leads.of_dependsOn (mem_directDependencies_iff.mp hb))
    obtain ⟨t, visited, invT, path⟩ := explored.passes noneLeads
    refine ⟨t.leave a, ?_, invT.leave path harmless, CycleSearch.path_leave path⟩
    rw [visit, visited]
    rfl
  · intro leads
    obtain ⟨b, edge, leadsB⟩ := leadsToCycle_iff_exists_dependency.mp leads
    -- dependencies are visited in ascending order: the first that leads to a cycle is the least
    obtain ⟨before, b, after, split, harmless, first⟩ :=
      exists_first_leadsToCycle ⟨b, mem_directDependencies_iff.mpr edge, leadsB⟩
    obtain ⟨cycle, found, closes⟩ := explored.finds before b after split harmless first
    have least : g.LeastStep a b := by
      have first := isLeast_first (split ▸ pairwise_directDependencies g a) harmless first
      rw [← split] at first
      simpa only [LeastStep, mem_directDependencies_iff] using first
    have fresh : a ∉ s.path := by
      intro passed
      rw [(inv.gray_iff a).mpr passed] at white
      contradiction
    refine ⟨cycle, ?_, .step fresh least closes⟩
    rw [visit, found]
    rfl

/-- A visit of no units explores them. -/
theorem explores_nil (inv : s.Invariant g) : g.Explores s [] where
  passes _ := ⟨s, visitEach_nil g s, inv, rfl⟩
  finds before b after split := by
    cases before <;> simp at split

/-- A black unit is passed over, and nothing is missed by that. -/
theorem explores_cons_of_black (inv : s.Invariant g) (black : s.colors.get? a = some .black)
    (rest : g.Explores s units) : g.Explores s (a :: units) where
  passes harmless := by
    rw [visitEach_cons_black black]
    exact rest.passes fun b hb => harmless b (List.mem_cons_of_mem a hb)
  finds before b after split harmless first := by
    rw [visitEach_cons_black black]
    cases before with
    | nil =>
      obtain ⟨rfl, -⟩ := List.cons.inj split
      exact absurd first (inv.black a black)
    | cons c before =>
      obtain ⟨-, split⟩ := List.cons.inj split
      exact rest.finds before b after split
        (fun d hd => harmless d (List.mem_cons_of_mem c hd)) first

/-- A gray unit closes the cycle. -/
theorem explores_cons_of_gray (inv : s.Invariant g) (gray : s.colors.get? a = some .gray)
    (leads : g.LeadsToCycle a) : g.Explores s (a :: units) where
  passes harmless := absurd leads (harmless a List.mem_cons_self)
  finds before b after split harmless first := by
    have here : b = a := by
      cases before with
      | nil => exact (List.cons.inj split).1.symm
      | cons c before =>
        obtain ⟨rfl, -⟩ := List.cons.inj split
        exact absurd leads (harmless a List.mem_cons_self)
    subst here
    obtain ⟨passed, between, path, fresh⟩ :=
      List.eq_append_cons_of_mem ((inv.gray_iff b).mp gray)
    refine ⟨b :: (between ++ [b]), ?_, path ▸ .again fresh⟩
    rw [visitEach_cons_gray gray, CycleSearch.closing_append path fresh]

/-- A white unit is visited; if it leads to no cycle, the visits go on after it. -/
theorem explores_cons_of_white (white : s.colors.get? a = some .white) (head : g.Visits s a)
    (rest : ∀ t, g.visit s a = .ok t → t.Invariant g → t.path = s.path → g.Explores t units) :
    g.Explores s (a :: units) where
  passes harmless := by
    obtain ⟨t, visited, inv, path⟩ := head.passes (harmless a List.mem_cons_self)
    obtain ⟨u, explored, invU, pathU⟩ :=
      (rest t visited inv path).passes fun b hb => harmless b (List.mem_cons_of_mem a hb)
    refine ⟨u, ?_, invU, pathU.trans path⟩
    rw [visitEach_cons_white white, visited]
    exact explored
  finds before b after split harmless first := by
    rw [visitEach_cons_white white]
    cases before with
    | nil =>
      obtain ⟨rfl, -⟩ := List.cons.inj split
      obtain ⟨cycle, found, closes⟩ := head.finds first
      exact ⟨cycle, by rw [found], closes⟩
    | cons c before =>
      obtain ⟨rfl, later⟩ := List.cons.inj split
      obtain ⟨t, visited, inv, path⟩ := head.passes (harmless a List.mem_cons_self)
      obtain ⟨cycle, found, closes⟩ := (rest t visited inv path).finds before b after later
        (fun d hd => harmless d (List.mem_cons_of_mem a hd)) first
      refine ⟨cycle, ?_, path ▸ closes⟩
      rw [visited]
      exact found

/-- A visit makes no unit unvisited again. -/
theorem unvisited_visitEach_le {t : CycleSearch} (h : g.visitEach s units = .ok t) :
    t.unvisited ≤ s.unvisited := by
  unfold visitEach at h
  cases explored : g.explore s units with
  | error cycle => rw [explored] at h; contradiction
  | ok u =>
    rw [explored] at h
    exact Except.ok.inj h ▸ u.property

/-- The visit of a white unit leaves fewer units to visit. -/
theorem unvisited_visit_lt {t : CycleSearch} (white : s.colors.get? a = some .white)
    (h : g.visit s a = .ok t) : t.unvisited < s.unvisited := by
  unfold visit at h
  cases visited : g.visitEach (s.enter a) (g.directDependencies a) with
  | error cycle => rw [visited] at h; contradiction
  | ok u =>
    rw [visited] at h
    calc
      t.unvisited = (u.leave a).unvisited := by rw [← Except.ok.inj h]
      _ ≤ u.unvisited := CycleSearch.unvisited_leave_le u a
      _ ≤ (s.enter a).unvisited := unvisited_visitEach_le visited
      _ < s.unvisited := CycleSearch.unvisited_enter_lt white

/-- The visits come to what they should whenever the invariant holds and the path goes on to each of
the units. -/
theorem explores (inv : s.Invariant g) (edges : ∀ b ∈ units, (s.path ++ [b]).IsChain g.DependsOn)
    (inside : ∀ b ∈ units, b ∈ g.units.toList) : g.Explores s units := by
  -- first on how many units are left to visit, which the visit of a white unit lowers; then on the
  -- units given, of which a black one is dropped without a visit
  induction count : s.unvisited using Nat.strong_induction_on generalizing s units with
  | _ n ihCount =>
    subst count
    induction units with
    | nil => exact explores_nil inv
    | cons a rest ihRest =>
      have chain := edges a List.mem_cons_self
      have edgesRest : ∀ b ∈ rest, (s.path ++ [b]).IsChain g.DependsOn :=
        fun b hb => edges b (List.mem_cons_of_mem a hb)
      have insideRest : ∀ b ∈ rest, b ∈ g.units.toList :=
        fun b hb => inside b (List.mem_cons_of_mem a hb)
      obtain ⟨color, known⟩ := inv.known a (inside a List.mem_cons_self)
      cases color with
      | black => exact explores_cons_of_black inv known (ihRest edgesRest insideRest)
      | gray => exact explores_cons_of_gray inv known (inv.leadsToCycle_of_gray chain known)
      | white =>
        have head : g.Visits s a := visits_of_explores inv known chain
          fun invA edgesA insideA =>
            ihCount _ (CycleSearch.unvisited_enter_lt known) invA edgesA insideA rfl
        apply explores_cons_of_white known head
        intro t visited invT path
        exact ihCount _ (unvisited_visit_lt known visited) invT (path ▸ edgesRest) insideRest rfl

/-- Between two visits that begin with no path, the search keeps its invariant. -/
theorem findCycleFrom_cons_of_harmless (units : List Address) (inv : s.Invariant g)
    (path : s.path = []) (harmless : ¬ g.LeadsToCycle a) :
    ∃ t, t.Invariant g ∧ t.path = [] ∧
      g.findCycleFrom? s (a :: units) = g.findCycleFrom? t units := by
  by_cases white : s.colors.get? a = some .white
  · have head : g.Visits s a := visits_of_explores inv white (by simp [path]) explores
    obtain ⟨t, visited, invT, pathT⟩ := head.passes harmless
    refine ⟨t, invT, pathT.trans path, ?_⟩
    rw [findCycleFrom?, if_pos white, visited]
  · refine ⟨s, inv, path, ?_⟩
    rw [findCycleFrom?, if_neg white]

/-- The visit of a unit that leads to a cycle, begun with no path, finds the one that its walk
closes. -/
theorem findCycleFrom_cons_of_leadsToCycle (units : List Address) (inv : s.Invariant g)
    (path : s.path = []) (leads : g.LeadsToCycle a) :
    ∃ cycle, g.findCycleFrom? s (a :: units) = some cycle ∧ g.Closes [] a cycle := by
  have white : s.colors.get? a = some .white := by
    obtain white | gray := inv.color_of_leadsToCycle leads
    · exact white
    · have passed := (inv.gray_iff a).mp gray
      simp [path] at passed
  have head : g.Visits s a := visits_of_explores inv white (by simp [path]) explores
  obtain ⟨cycle, found, closes⟩ := head.finds leads
  refine ⟨cycle, ?_, path ▸ closes⟩
  rw [findCycleFrom?, if_pos white, found]

/-- From units of which none leads to a cycle, none is found. -/
theorem findCycleFrom_eq_none (inv : s.Invariant g) (path : s.path = [])
    (harmless : ∀ b ∈ units, ¬ g.LeadsToCycle b) : g.findCycleFrom? s units = none := by
  induction units generalizing s with
  | nil => rfl
  | cons a rest ih =>
    obtain ⟨t, invT, pathT, same⟩ :=
      findCycleFrom_cons_of_harmless rest inv path (harmless a List.mem_cons_self)
    rw [same]
    exact ih invT pathT fun b hb => harmless b (List.mem_cons_of_mem a hb)

/-- The first unit that leads to a cycle decides which is found. -/
theorem findCycleFrom_append {before : List Address} (after : List Address)
    (inv : s.Invariant g) (path : s.path = []) (harmless : ∀ b ∈ before, ¬ g.LeadsToCycle b)
    (leads : g.LeadsToCycle a) :
    ∃ cycle, g.findCycleFrom? s (before ++ a :: after) = some cycle ∧ g.Closes [] a cycle := by
  induction before generalizing s with
  | nil => exact findCycleFrom_cons_of_leadsToCycle after inv path leads
  | cons b before ih =>
    obtain ⟨t, invT, pathT, same⟩ :=
      findCycleFrom_cons_of_harmless (before ++ a :: after) inv path (harmless b List.mem_cons_self)
    rw [List.cons_append, same]
    exact ih invT pathT fun c hc => harmless c (List.mem_cons_of_mem b hc)

/-- What the search comes to: nothing where no unit leads to a cycle, and else the cycle that the
walk from the least such unit closes. -/
theorem findCycle_eq (g : DependencyGraph) :
    ((∀ a, ¬ g.LeadsToCycle a) ∧ g.findCycle? = none) ∨
    ∃ cycle, g.IsLeastCycle cycle ∧ g.findCycle? = some cycle := by
  have inv := CycleSearch.invariant_start g
  by_cases leads : ∃ b ∈ g.sortedUnits, g.LeadsToCycle b
  · obtain ⟨before, b, after, split, harmless, first⟩ := exists_first_leadsToCycle leads
    obtain ⟨cycle, found, closes⟩ := findCycleFrom_append after inv rfl harmless first
    rw [← split] at found
    refine .inr ⟨cycle, isLeastCycle_iff.mpr ⟨b, ?_, closes⟩, found⟩
    have ascend : g.sortedUnits.Pairwise fun a b => a ≤ b := g.pairwise_sortedUnits
    have least := isLeast_first (split ▸ ascend) harmless first
    refine ⟨least.1.2, ?_⟩
    intro a leadsA
    exact least.2 ⟨split ▸ mem_sortedUnits.mpr leadsA.mem_units, leadsA⟩
  · have harmless : ∀ b ∈ g.sortedUnits, ¬ g.LeadsToCycle b :=
      fun b hb leadsB => leads ⟨b, hb, leadsB⟩
    refine .inl ⟨?_, findCycleFrom_eq_none inv rfl harmless⟩
    intro a leadsA
    exact harmless a (mem_sortedUnits.mpr leadsA.mem_units) leadsA

/-- The cycle that is found is the least one. -/
theorem findCycle_eq_some_iff {cycle : List Address} :
    g.findCycle? = some cycle ↔ g.IsLeastCycle cycle := by
  rcases findCycle_eq g with ⟨harmless, found⟩ | ⟨cycle', least, found⟩
  · rw [found]
    refine ⟨fun h => by contradiction, fun h => ?_⟩
    obtain ⟨a, least, -⟩ := isLeastCycle_iff.mp h
    exact absurd least.1 (harmless a)
  · rw [found, Option.some.injEq]
    exact ⟨fun same => same ▸ least, fun h => least.unique h⟩

/-- No cycle is found exactly when no unit leads to one. -/
theorem findCycle_eq_none_iff : g.findCycle? = none ↔ ∀ a, ¬ g.LeadsToCycle a := by
  rcases findCycle_eq g with ⟨harmless, found⟩ | ⟨cycle, least, found⟩
  · exact ⟨fun _ => harmless, fun _ => found⟩
  · rw [found]
    refine ⟨fun h => by contradiction, fun harmless => ?_⟩
    obtain ⟨a, first, -⟩ := isLeastCycle_iff.mp least
    exact absurd first.1 (harmless a)

/-- The search does not fail exactly on the graphs without a cycle. -/
theorem checkAcyclic_eq_ok_iff : g.checkAcyclic = .ok () ↔ g.IsAcyclic := by
  rw [isAcyclic_iff, ← findCycle_eq_none_iff, checkAcyclic]
  cases g.findCycle? with
  | none => exact iff_of_true rfl rfl
  | some cycle => exact iff_of_false (fun h => by contradiction) (fun h => by contradiction)

/-- What the search comes upon depends on the edges alone. -/
theorem findCycle_congr {h : DependencyGraph} (same : ∀ a b, h.DependsOn a b ↔ g.DependsOn a b) :
    h.findCycle? = g.findCycle? := by
  apply Option.ext
  intro cycle
  exact findCycle_eq_some_iff.trans
    ((isLeastCycle_congr same cycle).trans findCycle_eq_some_iff.symm)

/-- The search fails exactly on the graphs with a cycle, and then with the displayed units of the
least cycle: from the least unit that leads to a cycle one goes on to the least dependency that
does, until a unit comes again. The cycle goes along edges and has no repetition but its end, and it
is the same for all graphs with the same edges, in whatever order their units and edges were
added. -/
theorem checkAcyclic_eq (g : DependencyGraph) :
    (g.checkAcyclic = .ok () ↔ ∀ a ∈ g.units.toList, ¬ g.LeadsToCycle a) ∧
    (∀ failure, g.checkAcyclic = .error failure ↔ ∃ cycle, g.IsLeastCycle cycle ∧
      failure = .circularDependency (" → ".intercalate (cycle.map Address.display))) ∧
    (∀ cycle, g.IsLeastCycle cycle → ∃ a between, cycle = a :: (between ++ [a]) ∧
      (a :: between).Nodup ∧ cycle.IsChain g.DependsOn) ∧
    (∀ h : DependencyGraph, (∀ a b, h.DependsOn a b ↔ g.DependsOn a b) →
      h.checkAcyclic = g.checkAcyclic) := by
  refine ⟨?_, ?_, fun cycle least => least.exists_eq, ?_⟩
  · unfold checkAcyclic
    rcases found : g.findCycle? with _ | cycle
    · have harmless := findCycle_eq_none_iff.mp found
      simpa using fun a _ => harmless a
    · obtain ⟨a, least, -⟩ := isLeastCycle_iff.mp (findCycle_eq_some_iff.mp found)
      have leads : g.LeadsToCycle a := least.1
      simpa using ⟨a, leads.mem_units, leads⟩
  · intro failure
    unfold checkAcyclic
    rcases found : g.findCycle? with _ | cycle
    · have harmless := findCycle_eq_none_iff.mp found
      refine ⟨fun h => by contradiction, ?_⟩
      rintro ⟨cycle, least, -⟩
      rw [findCycle_eq_some_iff.mpr least] at found
      contradiction
    · have least := findCycle_eq_some_iff.mp found
      constructor
      · intro h
        exact ⟨cycle, least, (Except.error.inj h).symm⟩
      · rintro ⟨cycle', least', rfl⟩
        rw [least'.unique least]
        rfl
  · intro h same
    unfold checkAcyclic
    rw [findCycle_congr same]

end DependencyGraph

end TerraDeps
