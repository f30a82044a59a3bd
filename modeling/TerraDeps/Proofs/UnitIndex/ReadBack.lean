import TerraDeps.Proofs.Address
import TerraDeps.Proofs.UnitIndex.Discovery

/-!
# Finding units by their printed addresses

The address that is printed for a unit can be given back as a query. Directories and names may hold
blanks and colons, though, and a query is trimmed and cut at its last colon, so that some units are
not found under their own addresses.
-/

set_option autoImplicit false

namespace TerraDeps.UnitIndex

/-- A unit is found under the address that is printed for it exactly when the address reads back:
its directory starts with no blank, and either it has no name and the directory ends with no blank
and has no colon that is followed by anything, or its name has no colon, is more than blanks, and
is, without blanks at its end, the name itself or the one that the directory implies. -/
theorem find_parse_display_iff {index : UnitIndex} {unit : BuildUnit}
    (listed : unit ∈ index.toList) :
    index.find (Address.parse unit.address.display) = .ok unit ↔ unit.address.ReadsBack := by
  have inside := specPath_of_unitAt? (mem_toList_iff.mp listed)
  rw [find_eq_ok_iff, Address.fits_parse_display_iff inside]
  exact and_iff_right listed

/-- A name with a blank in it is read back, and so is a directory with a blank at its end. -/
theorem find_parse_display_blanks :
    let directory : ModulePath := ⟨[⟨"a ", by decide⟩]⟩
    let unit : BuildUnit := ⟨.named "a " "x y", directory, "a /BUILD", []⟩
    let index := empty.add unit (by decide)
    index.find (Address.parse unit.address.display) = .ok unit := by
  intro directory unit index
  have listed : unit ∈ index.toList := by decide +kernel
  have first : unit.address.specPath.toList.head? = some 'a' := by decide
  refine (find_parse_display_iff listed).mpr ⟨?_, by decide, by decide, .inl (by decide)⟩
  simp [first, show Text.isBlank 'a' = false by decide]

/-- A unit whose name has a colon is not found: the text is cut at the colon in the name. -/
theorem find_parse_display_colon :
    let tree := FileTree.empty.put ["w", "a", "BUILD"]
      (.file "terraform_module(name=\"x:y\")".toUTF8)
    let directory : ModulePath := ⟨[⟨"a", by decide⟩]⟩
    let unit : BuildUnit := ⟨.named "a" "x:y", directory, "a/BUILD", []⟩
    ∃ index, discover tree ["w"] "." { ignore := [] } = .ok index ∧ unit ∈ index.toList ∧
      index.find (Address.parse unit.address.display) = .error (.unitNotFound "a:x:y") := by
  intro tree directory unit
  have isDirectory : tree.isDirectory ["w"] = true := by decide +kernel
  have located := FileTree.locate_dot isDirectory
  refine ⟨empty.add unit (by decide), ?_, by decide +kernel, by decide +kernel⟩
  rw [discover_eq_foldlM located isDirectory rfl]
  decide +kernel

end TerraDeps.UnitIndex
