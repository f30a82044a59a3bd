import TerraDeps.Inference
import TerraDeps.Proofs.Traversal

/-!
# Inference in two phases

The dependencies of a unit are found in two phases, and the second starts only when the first has
gone through all references. First every local reference is resolved; the first that leads above the
root is the failure, whatever the references before it lead to. Then, of the references that lead
out of their own directory, the first that leads to no unit is the failure; if there is none, the
units they lead to are listed, each where it comes first.
-/

set_option autoImplicit false

namespace TerraDeps

/-- Whether the reference is local and leads above the root from the directory of its file. -/
def ModuleReference.escapes (dirOf : String → String) (r : ModuleReference) : Bool :=
  match ModuleSource.classify r.source r.version with
  | .localPath relative => !(ModulePath.resolve (dirOf r.file) relative).isOk
  | .remote _ => false

/-- The reference with the directory it leads to, if it is local and leads to one. -/
def ModuleReference.localReference? (dirOf : String → String) (r : ModuleReference) :
    Option LocalReference :=
  match ModuleSource.classify r.source r.version with
  | .localPath relative => (ModulePath.resolve (dirOf r.file) relative).toOption.map fun p => ⟨r, p⟩
  | .remote _ => none

/-- The units that the references lead to, found in two phases. -/
def inferInTwoPhases (resolver : AddressResolver) (dirOf : String → String)
    (references : List ModuleReference) : Except Failure (List Address) :=
  match references.find? (ModuleReference.escapes dirOf) with
  | some r => .error (.pathEscapesRoot r.file r.line r.source (dirOf r.file))
  | none =>
    let others := (references.filterMap (ModuleReference.localReference? dirOf)).filter fun r =>
      decide ((ModulePath.parse (dirOf r.reference.file)).toOption ≠ some r.path)
    match others.find? fun r => (resolver.addressOf? r.path).isNone with
    | some r => .error (.unresolvedAddress r.path.display r.reference.name r.reference.source
        r.reference.file r.reference.line (resolver.suggest r.path))
    | none => .ok (others.filterMap fun r => resolver.addressOf? r.path).eraseDups

/-- A path that leads above the root tells the directory from which it was resolved. -/
theorem anchor_of_resolve_eq_error {anchor relative : String} {e : EscapesRoot}
    (h : ModulePath.resolve anchor relative = .error e) : e.anchor = anchor := by
  unfold ModulePath.resolve at h
  split at h
  · contradiction
  · rw [← Except.error.inj h]

variable {dirOf : String → String} {r : ModuleReference}

/-- A reference that leads above the root fails with its file, line and source. -/
theorem ModuleReference.resolve_of_escapes (h : r.escapes dirOf = true) :
    r.resolve dirOf = .error (.pathEscapesRoot r.file r.line r.source (dirOf r.file)) := by
  unfold escapes at h
  unfold resolve
  cases source : ModuleSource.classify r.source r.version with
  | remote kind => simp [source] at h
  | localPath relative =>
    simp only [source] at h
    cases resolved : ModulePath.resolve (dirOf r.file) relative with
    | ok path => simp [resolved, Except.isOk, Except.toBool] at h
    | error e => simp only [resolved, anchor_of_resolve_eq_error resolved]

/-- Any other reference leads to its directory, or nowhere if it is remote. -/
theorem ModuleReference.resolve_of_not_escapes (h : r.escapes dirOf = false) :
    r.resolve dirOf = .ok (r.localReference? dirOf) := by
  unfold escapes at h
  unfold resolve localReference?
  cases source : ModuleSource.classify r.source r.version with
  | remote kind => rfl
  | localPath relative =>
    simp only [source] at h
    cases resolved : ModulePath.resolve (dirOf r.file) relative with
    | ok path => simp only [resolved, Except.toOption, Option.map_some]
    | error e => simp [resolved, Except.isOk, Except.toBool] at h

/-- The first phase. -/
theorem localReferences_eq (dirOf : String → String) (references : List ModuleReference) :
    localReferences dirOf references =
      match references.find? (ModuleReference.escapes dirOf) with
      | some r => .error (.pathEscapesRoot r.file r.line r.source (dirOf r.file))
      | none => .ok (references.filterMap (ModuleReference.localReference? dirOf)) := by
  have resolved := mapM_eq_of_find (fun r => some (r.localReference? dirOf))
    (fun r h => ModuleReference.resolve_of_escapes h)
    (fun r h => ⟨_, rfl, ModuleReference.resolve_of_not_escapes h⟩) references
  rw [localReferences, resolved]
  cases references.find? (ModuleReference.escapes dirOf) with
  | some r => rfl
  | none =>
    simp only [Except.map, List.filterMap_filterMap, Option.bind_some, id]

/-- A reference is kept if the directory of its file is another than the one that it leads to. -/
theorem not_isSelf_eq (dirOf : String → String) (r : LocalReference) :
    (!r.isSelf dirOf) =
      decide ((ModulePath.parse (dirOf r.reference.file)).toOption ≠ some r.path) := by
  unfold LocalReference.isSelf
  cases ModulePath.parse (dirOf r.reference.file) with
  | ok own => simp [Except.toOption]
  | error e => simp [Except.toOption]

/-- The second phase. -/
theorem mapM_address_eq (resolver : AddressResolver) (others : List LocalReference) :
    others.mapM (LocalReference.address resolver) =
      match others.find? fun r => (resolver.addressOf? r.path).isNone with
      | some r => .error (.unresolvedAddress r.path.display r.reference.name r.reference.source
          r.reference.file r.reference.line (resolver.suggest r.path))
      | none => .ok (others.filterMap fun r => resolver.addressOf? r.path) := by
  have fails (r : LocalReference) (unmapped : (resolver.addressOf? r.path).isNone = true) :
      r.address resolver = .error (.unresolvedAddress r.path.display r.reference.name
        r.reference.source r.reference.file r.reference.line (resolver.suggest r.path)) := by
    rw [LocalReference.address, Option.isNone_iff_eq_none.mp unmapped]
  have succeeds (r : LocalReference) (mapped : (resolver.addressOf? r.path).isNone = false) :
      ∃ a, resolver.addressOf? r.path = some a ∧ r.address resolver = .ok a := by
    cases found : resolver.addressOf? r.path with
    | none => simp [found] at mapped
    | some a => exact ⟨a, rfl, by rw [LocalReference.address, found]⟩
  rw [mapM_eq_of_find _ fails succeeds]
  cases others.find? fun r => (resolver.addressOf? r.path).isNone <;> rfl

/-- A reference with its directory is still the reference. -/
theorem ModuleReference.reference_of_localReference? {l : LocalReference}
    (h : r.localReference? dirOf = some l) : l.reference = r := by
  unfold localReference? at h
  split at h
  · obtain ⟨path, -, rfl⟩ := Option.map_eq_some_iff.mp h
    rfl
  · contradiction

/-- Every dependency is the unit in a directory that some reference leads to, which is not the
directory of the reference itself. -/
theorem exists_reference_of_mem {resolver : AddressResolver} {references : List ModuleReference}
    {d : Dependencies} {b : Address} (h : dependenciesOf resolver dirOf references = .ok d)
    (found : b ∈ d.addresses.toList) :
    ∃ r ∈ references, ∃ path, resolver.addressOf? path = some b ∧
      ModulePath.parse (dirOf r.file) ≠ .ok path := by
  unfold dependenciesOf at h
  rw [localReferences_eq] at h
  split at h
  · contradiction
  rename_i locals isLocals
  split at isLocals
  · contradiction
  obtain rfl := Except.ok.inj isLocals
  obtain ⟨addresses, mapped, rfl⟩ := map_eq_ok_iff.mp h
  rw [OrderedSet.toList_ofList, List.mem_eraseDups] at found
  obtain ⟨l, kept, leads⟩ := exists_of_mem_right (mapM_eq_ok_iff.mp mapped) found
  obtain ⟨isLocal, notSelf⟩ := List.mem_filter.mp kept
  obtain ⟨r, inside, gives⟩ := List.mem_filterMap.mp isLocal
  obtain rfl := ModuleReference.reference_of_localReference? gives
  refine ⟨l.reference, inside, l.path, ?_, ?_⟩
  · unfold LocalReference.address at leads
    split at leads
    · rename_i a named
      rw [named, Except.ok.inj leads]
    · contradiction
  · rw [not_isSelf_eq, decide_eq_true_eq] at notSelf
    intro own
    exact notSelf (by rw [own]; rfl)

/-- Inference fails where extraction does and is the function in two phases elsewhere; dependencies
on other units of a directory are never seen. -/
theorem inferDependencies_eq (extracted : Except Failure (List ModuleReference))
    (resolver : AddressResolver) (dirOf : String → String) :
    (inferDependencies extracted resolver dirOf).map
        (fun d => (d.addresses.toList, d.siblingsInferrable)) =
      match extracted with
      | .error e => .error e
      | .ok references =>
        (inferInTwoPhases resolver dirOf references).map fun addresses => (addresses, false) := by
  cases extracted with
  | error e => rfl
  | ok references =>
    simp only [inferDependencies, dependenciesOf, inferInTwoPhases, localReferences_eq]
    cases references.find? (ModuleReference.escapes dirOf) with
    | some r => rfl
    | none =>
      simp only [mapM_address_eq, not_isSelf_eq]
      split
      · rfl
      · simp only [Except.map, OrderedSet.toList_ofList]

end TerraDeps
