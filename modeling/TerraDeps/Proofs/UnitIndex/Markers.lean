import TerraDeps.Proofs.Traversal
import TerraDeps.Proofs.UnitIndex.Lookup

/-!
# Units and their markers

A marker declares the same unit whatever the other markers do; they can only be in its way. What one
marker adds to an index is said in `addMarker_cases`, and an index that is found has the units that
its markers declare, each by itself (`mem_toList_ofFiles`).
-/

set_option autoImplicit false

namespace TerraDeps.UnitIndex

/-- The unit is declared by the marker and owns the files that stand beside it. -/
structure IsUnitOf (settings : WorkspaceSettings) (ignore : List Glob.Pattern)
    (files : List FoundFile) (f : FoundFile) (unit : BuildUnit) : Prop where
  marker : unit.marker = f.path
  directory : markerDirectory f.path = .ok unit.directory
  sources : unit.sources = ownedSources settings ignore files f.directory

/-- The text of the marker declares one unit, which has the address in the directory. -/
def Declares (f : FoundFile) (directory : ModulePath) (address : Address) : Prop :=
  ∃ text declaration, FileTree.textOf f.bytes = .ok text ∧
    Marker.declarations text = [declaration] ∧
    address = Address.ofParts directory.text declaration.name

/-- The unit is the one that the marker declares. -/
structure IsDeclaredBy (settings : WorkspaceSettings) (ignore : List Glob.Pattern)
    (files : List FoundFile) (f : FoundFile) (unit : BuildUnit) : Prop
    extends IsUnitOf settings ignore files f unit where
  declares : Declares f unit.directory unit.address

variable {settings : WorkspaceSettings} {ignore : List Glob.Pattern}
  {files markers : List FoundFile} {f : FoundFile} {index next last : UnitIndex}
  {unit other : BuildUnit}

/-- A marker declares one address. -/
theorem Declares.unique {directory : ModulePath} {address a : Address}
    (h : Declares f directory address) (h' : Declares f directory a) : address = a := by
  obtain ⟨text, declaration, read, sole, rfl⟩ := h
  obtain ⟨text', declaration', read', sole', rfl⟩ := h'
  obtain rfl := Except.ok.inj (read.symm.trans read')
  obtain rfl := (List.cons.inj (sole.symm.trans sole')).1
  rfl

/-- A marker declares one unit. -/
theorem IsDeclaredBy.unique (h : IsDeclaredBy settings ignore files f unit)
    (h' : IsDeclaredBy settings ignore files f other) : unit = other := by
  have directory := Except.ok.inj (h.directory.symm.trans h'.directory)
  have marker := h.marker.trans h'.marker.symm
  have sources := h.sources.trans h'.sources.symm
  have address := h.declares.unique (directory ▸ h'.declares)
  cases unit
  cases other
  simp_all

/-- A marker that does not make discovery fail adds the unit that it declares, if any, to a
directory that had none. -/
theorem addMarker_cases (h : addMarker settings ignore files index f = .ok next) :
    (next = index ∧ ∀ unit, ¬ IsDeclaredBy settings ignore files f unit) ∨
    ∃ (unit : BuildUnit) (own : unit.address.specPath = unit.directory.text),
      IsDeclaredBy settings ignore files f unit ∧ index.unitAt? unit.directory = none ∧
      next = index.add unit own := by
  unfold addMarker at h
  cases read : FileTree.textOf f.bytes with
  | error e => simp [read] at h
  | ok text =>
    simp only [read] at h
    rcases found : Marker.declarations text with _ | ⟨declaration, _ | ⟨second, more⟩⟩
    · simp only [found, soleDeclaration?] at h
      refine .inl ⟨(Except.ok.inj h).symm, fun unit isUnit => ?_⟩
      obtain ⟨text', declaration, read', sole, -⟩ := isUnit.declares
      obtain rfl := Except.ok.inj (read.symm.trans read')
      rw [found] at sole
      contradiction
    · simp only [found, soleDeclaration?] at h
      cases above : markerDirectory f.path with
      | error e => simp [above] at h
      | ok directory =>
        simp only [above] at h
        cases existing : index.unitAt? directory with
        | some old => simp [existing] at h
        | none =>
          simp only [existing] at h
          exact .inr ⟨_, _, ⟨⟨rfl, above, rfl⟩, text, declaration, read, found, rfl⟩, existing,
            (Except.ok.inj h).symm⟩
    · simp [found, soleDeclaration?] at h

/-- A marker that is added brings the unit that it declares and no other. -/
theorem mem_addMarker_iff (h : addMarker settings ignore files index f = .ok next) :
    unit ∈ next.toList ↔ unit ∈ index.toList ∨ IsDeclaredBy settings ignore files f unit := by
  obtain ⟨rfl, noUnit⟩ | ⟨own, ownPath, isUnit, free, rfl⟩ := addMarker_cases h
  · simp [noUnit]
  · rw [mem_toList_iff, mem_toList_iff, unitAt?_add]
    have sole : IsDeclaredBy settings ignore files f unit ↔ unit = own :=
      ⟨fun isUnitToo => isUnitToo.unique isUnit, fun same => same ▸ isUnit⟩
    by_cases same : unit.directory = own.directory
    · simp [same, free, sole, eq_comm]
    · have different : unit ≠ own := fun equal => same (congrArg BuildUnit.directory equal)
      simp [same, sole, different]

/-- Every unit that is there in the end was there before or is declared by one of the markers, and
none of these is lost. -/
theorem mem_foldlM_addMarker_iff
    (h : markers.foldlM (addMarker settings ignore files) index = .ok last) :
    unit ∈ last.toList ↔
      unit ∈ index.toList ∨ ∃ f ∈ markers, IsDeclaredBy settings ignore files f unit := by
  induction markers generalizing index with
  | nil =>
    obtain rfl := Except.ok.inj h
    simp
  | cons f markers ih =>
    rw [List.foldlM_cons, bind_eq_ok_iff] at h
    obtain ⟨next, step, rest⟩ := h
    rw [ih rest, mem_addMarker_iff step, or_assoc, List.exists_mem_cons_iff]

/-- When discovery goes through to the end, the units are those that the markers declare. -/
theorem mem_toList_ofFiles (h : ofFiles settings files = .ok index) :
    ∃ ignore, settings.ignore.mapM ignorePattern = .ok ignore ∧
      ∀ unit, unit ∈ index.toList ↔ ∃ f ∈ files, isMarker settings ignore f = true ∧
        IsDeclaredBy settings ignore files f unit := by
  unfold ofFiles at h
  split at h
  · contradiction
  rename_i ignore valid
  have isEmpty (unit : BuildUnit) : unit ∉ UnitIndex.empty.toList := by
    simp [mem_toList_iff, unitAt?_empty]
  refine ⟨ignore, valid, fun unit => ?_⟩
  simp only [mem_foldlM_addMarker_iff h, isEmpty, false_or, List.mem_filter, and_assoc]

end TerraDeps.UnitIndex
