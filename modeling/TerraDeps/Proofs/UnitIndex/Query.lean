import TerraDeps.Proofs.Address
import TerraDeps.Proofs.UnitIndex.Discovery

/-!
# Finding units by directory and name

A query `dir:name` is meant for the unit of that name in the directory. Reading the query drops a
name that is the directory's own last name, though, and a query without a name fits whatever unit
the directory has. `find_named_iff` says which unit such a query finds: the one in the directory, if
its name is the one asked for or the name asked for is the directory's own.
-/

set_option autoImplicit false

namespace TerraDeps

open Text

/-- The name of a unit: the one it was given, or else the last name of its directory. -/
def BuildUnit.name (unit : BuildUnit) : String :=
  unit.address.targetName.getD (unit.directory.names.getLastD "")

namespace UnitIndex

variable {index : UnitIndex} {unit : BuildUnit} {dir name : String}

/-- A text with a name after its last colon is read as that name in the directory before it. -/
theorem parse_named (trimmed : trim (dir ++ ":" ++ name) = dir ++ ":" ++ name)
    (noColon : ':' ∉ name.toList) (notEmpty : name ≠ "") :
    Address.parse (dir ++ ":" ++ name) = .named (Address.cleanPath dir.toList) name := by
  have cut : trimBlanks (dir ++ ":" ++ name).toList = dir.toList ++ ':' :: name.toList := by
    have chars := congrArg String.toList trimmed
    rw [trim, String.toList_ofList] at chars
    rw [chars]
    simp
  have someName : name.toList ≠ [] := by simpa using notEmpty
  rw [Address.parse_of_name cut noColon someName, String.ofList_toList]

/-- A unit of the index has the name `n` or its directory has it exactly when the unit was given `n`
or the directory implies it. -/
theorem name_eq_or_iff (listed : unit ∈ index.toList) {n : String} :
    (unit.name = n ∨ unit.directory.names.getLastD "" = n) ↔
      n = Address.impliedName unit.address.specPath ∨ unit.address.targetName = some n := by
  rw [specPath_of_unitAt? (mem_toList_iff.mp listed), Address.impliedName_text, BuildUnit.name]
  cases unit.address.targetName with
  | none => simp [eq_comm]
  | some given => simp [or_comm, eq_comm]

/-- A query for a name in a directory finds the unit of that directory exactly when the unit has the
name or the name is the last of the directory's own names; then the unit may have another. -/
theorem find_named_iff (trimmed : trim (dir ++ ":" ++ name) = dir ++ ":" ++ name)
    (noColon : ':' ∉ name.toList) (notEmpty : name ≠ "") :
    index.find (Address.parse (dir ++ ":" ++ name)) = .ok unit ↔
      unit ∈ index.toList ∧ unit.directory.text = Address.cleanPath dir.toList ∧
      (unit.name = name ∨ unit.directory.names.getLastD "" = name) := by
  rw [find_eq_ok_iff, parse_named trimmed noColon notEmpty, Address.fits_named_iff]
  refine and_congr_right fun listed => ?_
  rw [name_eq_or_iff listed, specPath_of_unitAt? (mem_toList_iff.mp listed)]
  exact and_congr_right fun same => by rw [same]

/-- A slash after the directory makes no difference. -/
theorem find_named_slash :
    let directory : ModulePath := ⟨[⟨"app", by decide⟩]⟩
    let unit : BuildUnit := ⟨.named "app" "infra", directory, "app/BUILD", []⟩
    let index := empty.add unit (by decide)
    index.find (Address.parse ("app/" ++ ":" ++ "infra")) = .ok unit := by
  intro directory unit index
  have listed : unit ∈ index.toList := by decide +kernel
  exact (find_named_iff (by decide) (by decide) (by decide)).mpr
    ⟨listed, by decide, .inl (by decide)⟩

/-- The only unit in `app` is named `infra`; a query for `app` in that directory finds it. -/
theorem find_named_other :
    let tree := FileTree.empty.put ["w", "app", "BUILD"]
      (.file "terraform_module(name='infra')".toUTF8)
    let directory : ModulePath := ⟨[⟨"app", by decide⟩]⟩
    let unit : BuildUnit := ⟨.named "app" "infra", directory, "app/BUILD", []⟩
    ∃ index, discover tree ["w"] "." { ignore := [] } = .ok index ∧
      index.find (Address.parse "app:app") = .ok unit ∧ unit.name ≠ "app" := by
  intro tree directory unit
  have isDirectory : tree.isDirectory ["w"] = true := by decide +kernel
  have located := FileTree.locate_dot isDirectory
  refine ⟨empty.add unit (by decide), ?_, by decide +kernel, by decide⟩
  rw [discover_eq_foldlM located isDirectory rfl]
  decide +kernel

end UnitIndex

end TerraDeps
