import TerraDeps.Proofs.DependencyGraph.BuildOrder
import TerraDeps.Proofs.DependencyGraph.OfEdges
import TerraDeps.Proofs.Inference
import TerraDeps.Proofs.ModuleReference
import TerraDeps.Proofs.UnitIndex.Discovery
import TerraDeps.Workspace

/-!
# The graph of a workspace

Inference leaves out a reference when it leads to the directory of its own file, and the graph joins
addresses. That no unit depends on itself needs more than either: source files are in the directory
of their unit (`UnitIndex.parentDir_of_mem_sources`), and units of different directories have
different addresses.
-/

set_option autoImplicit false

namespace TerraDeps.Workspace

/-- The graph has the units of the index and the dependencies that were inferred for them, each as
an edge of its own, and no unit depends on itself. -/
structure IsGraphOf (index : UnitIndex) (inferred : BuildUnit → Dependencies)
    (g : DependencyGraph) : Prop where
  mem_units_iff : ∀ a, a ∈ g.units.toList ↔ ∃ unit ∈ index.toList, unit.address = a
  size_units : g.units.size = index.size
  dependsOn_iff : ∀ a b, g.DependsOn a b ↔
    ∃ unit ∈ index.toList, unit.address = a ∧ b ∈ (inferred unit).addresses.toList
  size_edges : g.edges.size =
    (index.toList.flatMap fun unit => (inferred unit).addresses.toList).length
  not_dependsOn_self : ∀ a, ¬ g.DependsOn a a

variable {tree : FileTree} {base place : Place} {root : String} {settings : WorkspaceSettings}
  {w : Workspace} {inferred : BuildUnit → Dependencies}

/-- No two units of an index have the same address. -/
theorem nodup_addresses (index : UnitIndex) : (index.toList.map BuildUnit.address).Nodup := by
  refine List.pairwise_map.mpr (index.pairwise_toList.imp fun less same => ?_)
  rw [same] at less
  exact KeyOrder.lt_irrefl _ less

/-- What is inferred for a unit comes from the references in its sources. -/
theorem references_of_dependencies {unit : BuildUnit} {d : Dependencies}
    (h : w.dependencies unit = .ok d) : ∃ snapshot references,
      ModuleReference.extract snapshot unit.sources = .ok references ∧
      dependenciesOf w.index.resolver Path.parentDir references = .ok d := by
  unfold dependencies at h
  split at h
  · contradiction
  rename_i snapshot captured
  unfold inferDependencies at h
  split at h
  · contradiction
  rename_i references extracted
  exact ⟨snapshot, references, extracted, h⟩

/-- A unit depends on other units of the index only. -/
theorem other_unit_of_mem_dependencies {unit : BuildUnit} {d : Dependencies} {b : Address}
    (located : tree.locate base root = .ok place) (isDirectory : tree.isDirectory place = true)
    (plain : tree.HasPlainNames place) (discovered : discover tree base root settings = .ok w)
    (listed : unit ∈ w.index.toList) (infers : w.dependencies unit = .ok d)
    (depends : b ∈ d.addresses.toList) :
    b ≠ unit.address ∧ ∃ other ∈ w.index.toList, other.address = b := by
  obtain ⟨index, found, rfl⟩ := map_eq_ok_iff.mp discovered
  obtain ⟨snapshot, references, extracted, related⟩ := references_of_dependencies infers
  obtain ⟨r, inside, path, leads, elsewhere⟩ := exists_reference_of_mem related depends
  obtain ⟨other, there, rfl⟩ := Option.map_eq_some_iff.mp leads
  have own := UnitIndex.parentDir_of_mem_sources located isDirectory plain found listed
    (ModuleReference.file_mem_of_extract extracted inside)
  rw [own, ModulePath.parse_text] at elsewhere
  have otherDirectory := UnitIndex.directory_of_unitAt? there
  refine ⟨fun same => elsewhere ?_, other, ?_, rfl⟩
  · have directories := congrArg Address.specPath same
    rw [UnitIndex.specPath_of_unitAt? there,
      UnitIndex.specPath_of_unitAt? (UnitIndex.mem_toList_iff.mp listed)] at directories
    exact congrArg Except.ok (ModulePath.text_injective directories.symm)
  · exact UnitIndex.mem_toList_iff.mpr (otherDirectory.symm ▸ there)

/-- What the graph is built from: each unit's address with its dependencies. -/
def given (index : UnitIndex) (inferred : BuildUnit → Dependencies) :
    List (Address × List Address) :=
  index.toList.map fun unit => (unit.address, (inferred unit).addresses.toList)

/-- The units' addresses with what is inferred for them, one entry for each unit in their order. -/
def AreInferred (w : Workspace) (units : List BuildUnit)
    (entries : List (Address × Dependencies)) : Prop :=
  List.Forall₂ (fun unit entry => entry.1 = unit.address ∧ w.dependencies unit = .ok entry.2)
    units entries

/-- The failure is that of the first unit for which nothing can be inferred. -/
def FailsFirst (w : Workspace) (units : List BuildUnit) (f : Failure) : Prop :=
  ∃ before unit after, units = before ++ unit :: after ∧
    (∀ other ∈ before, ∃ d, w.dependencies other = .ok d) ∧ w.dependencies unit = .error f

/-- The entry of a unit is its address with what is inferred for it. -/
theorem unitDependencies_eq_ok_iff {unit : BuildUnit} {entry : Address × Dependencies} :
    w.unitDependencies unit = .ok entry ↔
      entry.1 = unit.address ∧ w.dependencies unit = .ok entry.2 := by
  rw [unitDependencies, map_eq_ok_iff]
  constructor
  · rintro ⟨d, infers, rfl⟩
    exact ⟨rfl, infers⟩
  · rintro ⟨same, infers⟩
    exact ⟨entry.2, infers, same ▸ rfl⟩

/-- Inference for several units gives what is inferred for each of them. -/
theorem inferAll_eq_ok_iff {units : List BuildUnit} {entries : List (Address × Dependencies)} :
    w.inferAll units = .ok entries ↔ w.AreInferred units entries := by
  rw [inferAll, mapM_eq_ok_iff, AreInferred]
  simp only [unitDependencies_eq_ok_iff]

/-- Inference for several units fails as the first of them does that fails. -/
theorem inferAll_eq_error_iff {units : List BuildUnit} {f : Failure} :
    w.inferAll units = .error f ↔ w.FailsFirst units f := by
  have succeeds (unit : BuildUnit) : (∃ entry, w.unitDependencies unit = .ok entry) ↔
      ∃ d, w.dependencies unit = .ok d := by
    simp only [unitDependencies_eq_ok_iff]
    constructor
    · rintro ⟨entry, -, infers⟩
      exact ⟨entry.2, infers⟩
    · rintro ⟨d, infers⟩
      exact ⟨(unit.address, d), rfl, infers⟩
  have fails (unit : BuildUnit) : w.unitDependencies unit = .error f ↔
      w.dependencies unit = .error f := map_eq_error_iff
  simp only [inferAll, mapM_eq_error_iff, FailsFirst, succeeds, fails]

/-- If inference succeeds for every unit, the graph is made from what is inferred. -/
theorem graph_eq (infers : ∀ unit ∈ w.index.toList, w.dependencies unit = .ok (inferred unit)) :
    w.graph = .ok (.ofEdges (given w.index inferred)) := by
  have all : w.inferAll w.index.toList =
      .ok (w.index.toList.map fun unit => (unit.address, inferred unit)) := by
    rw [inferAll_eq_ok_iff, AreInferred, List.forall₂_map_right_iff, List.forall₂_same]
    exact fun unit listed => ⟨rfl, infers unit listed⟩
  rw [graph, all, Except.map, graphOf, List.map_map]
  rfl

/-- The graph made from dependencies among the units is the graph of the index. -/
theorem isGraphOf_ofEdges (index : UnitIndex) (inferred : BuildUnit → Dependencies)
    (others : ∀ unit ∈ index.toList, ∀ b ∈ (inferred unit).addresses.toList,
      b ≠ unit.address ∧ ∃ other ∈ index.toList, other.address = b) :
    IsGraphOf index inferred (.ofEdges (given index inferred)) := by
  have units (a : Address) : a ∈ (DependencyGraph.ofEdges (given index inferred)).units.toList ↔
      ∃ unit ∈ index.toList, unit.address = a := by
    simp only [DependencyGraph.mem_units_ofEdges, given, List.mem_map, exists_exists_and_eq_and]
    constructor
    · rintro ⟨unit, listed, rfl | depends⟩
      · exact ⟨unit, listed, rfl⟩
      · exact (others unit listed a depends).2
    · rintro ⟨unit, listed, rfl⟩
      exact ⟨unit, listed, .inl rfl⟩
  have edges (a b : Address) : (DependencyGraph.ofEdges (given index inferred)).DependsOn a b ↔
      ∃ unit ∈ index.toList, unit.address = a ∧ b ∈ (inferred unit).addresses.toList := by
    simp only [DependencyGraph.DependsOn, DependencyGraph.mem_edges_ofEdges, given, List.mem_map,
      exists_exists_and_eq_and, @eq_comm _ a]
  refine ⟨units, ?_, edges, ?_, ?_⟩
  · have same : (DependencyGraph.ofEdges (given index inferred)).units.toList.Perm
        (index.toList.map BuildUnit.address) := by
      refine (List.perm_ext_iff_of_nodup (OrderedSet.nodup _) (nodup_addresses index)).mpr
        fun a => ?_
      rw [units, List.mem_map]
    rw [OrderedSet.size, same.length_eq, List.length_map]
    simp [UnitIndex.toList, UnitIndex.size, Catalog.values, Catalog.size]
  · rw [DependencyGraph.size_edges_ofEdges, given, List.flatMap_map]
    · rw [given, List.map_map]
      exact nodup_addresses index
    · rw [given, List.forall_mem_map]
      exact fun unit _ => (inferred unit).addresses.nodup
  · intro a self
    obtain ⟨unit, listed, rfl, depends⟩ := (edges a a).mp self
    exact (others unit listed _ depends).1 rfl

/-- Below a directory where units are found and inference succeeds for each of them, every
dependency is another unit that was found, and the graph of the workspace is made of exactly these
units and dependencies. When it is acyclic, the build order has the units' addresses, each once. -/
theorem graph_spec (located : tree.locate base root = .ok place)
    (isDirectory : tree.isDirectory place = true) (plain : tree.HasPlainNames place)
    (discovered : discover tree base root settings = .ok w)
    (infers : ∀ unit ∈ w.index.toList, w.dependencies unit = .ok (inferred unit)) :
    (∀ unit ∈ w.index.toList, ∀ b ∈ (inferred unit).addresses.toList,
      b ≠ unit.address ∧ ∃ other ∈ w.index.toList, other.address = b) ∧
    ∃ g, w.graph = .ok g ∧ IsGraphOf w.index inferred g ∧
      (g.IsAcyclic → ∃ order, g.buildOrder = .ok order ∧
        order.Perm (w.index.toList.map BuildUnit.address)) := by
  have others : ∀ unit ∈ w.index.toList, ∀ b ∈ (inferred unit).addresses.toList,
      b ≠ unit.address ∧ ∃ other ∈ w.index.toList, other.address = b :=
    fun unit listed b depends => other_unit_of_mem_dependencies located isDirectory plain discovered
      listed (infers unit listed) depends
  have isGraph := isGraphOf_ofEdges w.index inferred others
  refine ⟨others, _, graph_eq infers, isGraph, fun acyclic => ?_⟩
  have valid := Placement.isBuildOrder_finish acyclic
  have noCycle :=
    DependencyGraph.findCycle_eq_none_iff.mpr (DependencyGraph.isAcyclic_iff.mp acyclic)
  refine ⟨_, by rw [DependencyGraph.buildOrder, noCycle], ?_⟩
  refine (List.perm_ext_iff_of_nodup valid.nodup (nodup_addresses w.index)).mpr fun a => ?_
  rw [valid.mem_iff, isGraph.mem_units_iff, List.mem_map]

/-- Of two units one depends on the other. -/
theorem graph_spec_two_units :
    let main := "module b \x7b\n  source = \"../b\"\n\x7d\n"
    let tree := ((FileTree.empty.put ["w", "a", "BUILD"] (.file "terraform_module()".toUTF8)).put
      ["w", "b", "BUILD"] (.file "terraform_module()".toUTF8)).put
      ["w", "a", "main.tf"] (.file main.toUTF8)
    let a : ModulePath := ⟨[⟨"a", by decide⟩]⟩
    let b : ModulePath := ⟨[⟨"b", by decide⟩]⟩
    let index := (UnitIndex.empty.add ⟨.ofPath "a", a, "a/BUILD", ["a/main.tf"]⟩ (by decide)).add
      ⟨.ofPath "b", b, "b/BUILD", []⟩ (by decide)
    let w : Workspace := ⟨tree, ["w"], ".", index⟩
    let inferred (unit : BuildUnit) : Dependencies :=
      ⟨if unit.directory = a then .ofList [.ofPath "b"] else .empty, false⟩
    discover tree ["w"] "." { ignore := [] } = .ok w ∧
      ∃ g, w.graph = .ok g ∧ IsGraphOf index inferred g := by
  intro main tree a b index w inferred
  have isDirectory : tree.isDirectory ["w"] = true := by decide +kernel
  have located := FileTree.locate_dot isDirectory
  have plain : tree.HasPlainNames ["w"] := by decide +kernel
  have discovered : discover tree ["w"] "." { ignore := [] } = .ok w := by
    have found : UnitIndex.discover tree ["w"] "." { ignore := [] } = .ok index := by
      rw [UnitIndex.discover_eq_foldlM located isDirectory rfl]
      decide +kernel
    rw [discover, found]
    rfl
  have captured : Snapshot.capture tree ["w"] "." ["a/main.tf"] =
      .ok (.ofFiles [("a/main.tf", main)]) := by
    have read : tree.read ["w"] "./a/main.tf" = .ok main.toUTF8 := by
      have above : tree.entry? ["w", "a"] = some .directory := rfl
      have file : tree.entry? ["w", "a", "main.tf"] = some (.file main.toUTF8) := rfl
      have short : ¬ FileTree.nameLimit < "a".utf8ByteSize := by decide
      have shortToo : ¬ FileTree.nameLimit < "main.tf".utf8ByteSize := by decide
      have inside := FileTree.isDirectory_iff.mpr above
      simp [FileTree.read, FileTree.locate, FileTree.walk, namesOf, isAbsolute, Text.pieces,
        isDirectory, inside, above, file, short, shortToo]
    have joined : Path.join "." "a/main.tf" = "./a/main.tf" := by decide
    exact Snapshot.capture_singleton (joined ▸ read) (by decide +kernel)
  have infers : ∀ unit ∈ w.index.toList, w.dependencies unit = .ok (inferred unit) := by
    have units : w.index.toList = [⟨.ofPath "a", a, "a/BUILD", ["a/main.tf"]⟩,
      ⟨.ofPath "b", b, "b/BUILD", []⟩] := by decide +kernel
    rw [units, List.forall_mem_cons, List.forall_mem_singleton]
    constructor
    · rw [dependencies, captured]
      decide +kernel
    · decide +kernel
  obtain ⟨-, g, built, isGraph, -⟩ := graph_spec located isDirectory plain discovered infers
  exact ⟨discovered, g, built, isGraph⟩

end TerraDeps.Workspace
