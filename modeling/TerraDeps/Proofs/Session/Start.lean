import TerraDeps.Proofs.FileTree.Places
import TerraDeps.Session

/-!
# How sessions start

A session finds its root and loads the settings there. A root given as `.` is the working directory,
and where there is no settings file every setting has its default.
-/

set_option autoImplicit false

namespace TerraDeps

namespace FileTree

variable {tree : FileTree} {base place : Place} {root name : String}

/-- A slash and the name of a directory at the top lead there. -/
theorem locate_top (isName : IsFileName name) (isDirectory : tree.isDirectory [name] = true)
    (base : Place) : tree.locate base ("/" ++ name) = .ok [name] := by
  have path : Place.text [name] = "/" ++ name := by
    rw [Place.text, String.intercalate_singleton]
  rw [← path]
  exact locate_text (stands_of_isDirectory isDirectory) (by simpa using isName) base

/-- A path to a name that is missing in a directory leads nowhere. -/
theorem locate_join_missing (located : tree.locate base root = .ok place)
    (isDirectory : tree.isDirectory place = true) (isName : IsFileName name)
    (missing : tree.entry? (place ++ [name]) = none) :
    tree.locate base (Path.join root name) = .error .noSuchFile := by
  obtain ⟨left, walked⟩ := exists_locate_join located isName.head?_ne isName.noNul
  rw [walked, isName.namesOf_eq, (isName.looksUp isDirectory).walk_missing missing]

end FileTree

namespace Session

variable {s : Session} {i : Invocation} {place : Place} {root : String}

/-- The root that is asked for by a dot is the working directory. -/
theorem root_of_dot (asked : i.root = some ".")
    (isDirectory : s.tree.isDirectory s.directory = true) :
    s.root i = .ok s.directory.text := by
  simp only [Session.root, asked, FileTree.locate_dot isDirectory]

/-- Without a settings file at the root, no settings differ from those by default. -/
theorem settings_of_missing (config : i.config = none)
    (located : s.tree.locate s.directory root = .ok place)
    (isDirectory : s.tree.isDirectory place = true)
    (missing : s.tree.entry? (place ++ [settingsFileName]) = none) :
    s.settings i root = .ok {} := by
  have nowhere := FileTree.locate_join_missing located isDirectory
    (show IsFileName settingsFileName by decide) missing
  simp [settings, config, during, Settings.load, FileTree.leadsSomewhere, nowhere, Except.mapError]

end Session

end TerraDeps
