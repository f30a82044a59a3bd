import TerraDeps.Session

/-!
# The command line

`main` reads the arguments, gathers the files that the command may look at into a file tree, runs
the command in it and prints the outcome. Links are followed where a path names them, so the tree
holds files and directories only; what cannot be read is left out.
-/

set_option autoImplicit false

namespace TerraDeps.Main

/-- The tree with directories along a path as it is written and an entry at its end. -/
def mount (tree : FileTree) (path : String) (entry : Entry) : FileTree :=
  let step (found : Place × FileTree) (name : String) : Place × FileTree :=
    if name = "" ∨ name = "." then found
    else
      let place := if name = ".." then found.1.parent else found.1 ++ [name]
      (place, found.2.makeDirectory found.1)
  let (place, tree) := (namesOf path).foldl step ([], tree)
  match entry with
  | .directory => tree.makeDirectory place
  | _ => tree.put place entry

/-- The tree with what an absolute path of the file system leads to, if it can be read. -/
def mountFrom (tree : FileTree) (path : String) : IO FileTree := do
  try
    let real := (← IO.currentDir) / path
    match (← real.metadata).type with
    | .dir => return mount tree path .directory
    | .file => return mount tree path (.file (← IO.FS.readBinFile real))
    | _ => return tree
  catch _ => return tree

/-- The tree with all that is below a directory. The bytes of files whose names fail the test are
left out. -/
partial def mountBelow (needed : String → Bool) (tree : FileTree) (path : String) :
    IO FileTree := do
  try
    let mut tree := mount tree path .directory
    for entry in ← ((← IO.currentDir) / path).readDir do
      let below := Path.join path entry.fileName
      match (← entry.path.symlinkMetadata).type with
      | .dir => tree ← mountBelow needed tree below
      | .file =>
        if needed entry.fileName then tree ← mountFrom tree below
        else tree := mount tree below (.file .empty)
      | _ => pure ()
    return tree
  catch _ => return tree

/-- The path without links of what a path leads to, or the path if it leads nowhere. -/
def realPath (path : String) : IO String := do
  try return (← IO.FS.realPath path).toString
  catch _ => return path

/-- Whether the bytes of a file with the given name can matter to a workspace. -/
def isNeeded (settings : WorkspaceSettings) (name : String) : Bool :=
  settings.markerFiles.contains name || hasSourceExtension settings.sourceExtensions name

/-- The session with the files that the command may look at in a workspace. -/
def withFiles (s : Session) (i : Invocation) (root : String) : IO Session := do
  let tree ← mountFrom s.tree (Path.join root settingsFileName)
  let s := { s with tree := ← mountFrom tree root }
  match i.command with
  | .parse files =>
    let mut tree := s.tree
    for file in files do
      if let .ok path := Session.workspaceFile file then
        tree ← mountFrom tree (Path.join root path)
    return { s with tree := tree }
  | _ =>
    match s.settings i root with
    | .error _ => return s
    | .ok settings =>
      if s.tree.leadsToFile [] root then return s
      return { s with tree := ← mountBelow (isNeeded settings.workspace) s.tree root }

/-- The session for an invocation in the real file system. -/
def gather (i : Invocation) (color : Bool) : IO Session := do
  let directory ← realPath (← IO.currentDir).toString
  let mut tree := mount .empty directory .directory
  for above in Path.ancestors directory do
    tree ← mountFrom tree (Path.join above settingsFileName)
  if let some config := i.config then
    tree ← mountFrom tree (Path.join directory config)
  if let some root := i.root then
    tree ← mountFrom tree (Path.join directory root)
  let s : Session := ⟨tree, (namesOf directory).filter fun n => !n.isEmpty, color⟩
  match s.root i with
  | .ok root => withFiles s i root
  | .error _ => return s

/-- Whether the error output and the output can show colors. -/
def showsColor : IO Bool := do
  if (← IO.getEnv "NO_COLOR").isSome then return false
  return (← (← IO.getStdout).isTty)

/-- Runs the program and gives its exit code. -/
def run (arguments : List String) : IO UInt32 := do
  match Invocation.parse arguments with
  | .error r =>
    if r.exitCode = 0 then IO.println r.message else IO.eprintln ("error: " ++ r.message)
    unless r = .versionWanted do
      if r.exitCode = 0 then IO.println Invocation.usage else IO.eprintln Invocation.usage
    return UInt32.ofNat r.exitCode
  | .ok i =>
    let root ← i.root.mapM realPath
    let config := i.config.or (← IO.getEnv "TFDEP_CONFIG")
    let i := { i with root := root, config := config }
    let outcome := (← gather i (← showsColor)).outcome i
    IO.print outcome.output
    IO.eprint outcome.errors
    return UInt32.ofNat outcome.exitCode

end TerraDeps.Main

/-- Runs the program with the arguments of the command line. -/
def main (arguments : List String) : IO UInt32 :=
  TerraDeps.Main.run arguments
