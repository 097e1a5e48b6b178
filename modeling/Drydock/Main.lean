import Drydock.CommandLine
import Drydock.Shell.Launcher

/-!
# The command line

`main` reads the package's directory, carries the command out on what it read, prints the reply and
puts the changes back.  Everything between reading and printing is `CommandLine.run`.

The directory is the nearest one with a manifest, from the working directory upward, or the working
directory itself.  Scripts are known by their first line; they run in the shell of this library.
-/

namespace Drydock.Main

/-- The variables that a run looks at. -/
def variableNames : List String :=
  ["PATH", "HOME", "CC", "CPPFLAGS", "CFLAGS", "LDFLAGS", "LIBS", "MAKE", "MAKEFLAGS",
    "CIBUILDWHEEL", "READTHEDOCS", Settings.linkModeVariable, Settings.libraryDirVariable,
    Settings.includeDirVariable, Settings.configureOptionsVariable, CommandLine.logVariable]

/-- The environment of a run. -/
def readEnvironment : IO (Table String) := do
  let found ← variableNames.mapM fun name => do
    return (← IO.getEnv name).map fun value => (name, value)
  return .ofList (found.filterMap id)

/-- A location as text. -/
def textOf (l : Location) : String := "/" ++ "/".intercalate l

/-- The location of an absolute path. -/
def locationOf (text : String) : Location :=
  ((Text.splitChars '/' text.toList).filter (· ≠ [])).map String.ofList

/-- Whether contents are those of a script. -/
def isScript (contents : Bytes) : Bool := contents.take 2 = [0x23, 0x21]

/-- Reads a directory with everything below it. -/
partial def readTree (l : Location) (t : FileTree) : IO FileTree := do
  let mut tree := t
  for entry in ← (← IO.FS.realPath (textOf l)).readDir do
    let inner := l ++ [entry.fileName]
    match (← entry.path.metadata).type with
    | .dir => tree ← readTree inner (tree.set inner .directory)
    | .file => do
        let contents := (← IO.FS.readBinFile (textOf inner)).data.toList
        tree := tree.set inner (.file contents (isScript contents))
    | _ => pure ()
  return tree

/-- The tools of the system with the directories down to a location. -/
def treeAround (l : Location) : FileTree :=
  (List.range l.length).foldl (fun t n => t.set (l.take (n + 1)) .directory)
    (Shell.installTools .empty)

/-- The nearest directory with a manifest, from a location upward; the location itself where there
is none. -/
partial def packageRoot (start l : Location) : IO Location := do
  let present ← (IO.FS.readFile (textOf (l ++ [manifestName]))).toBaseIO
  match present with
  | .ok _ => return l
  | .error _ => if l = [] then return start else packageRoot start l.dropLast

/-- Puts a node of a tree on the disk. -/
def writeNode (l : Location) : Node → IO Unit
  | .directory => IO.FS.createDirAll (textOf l)
  | .file contents executable => do
      IO.FS.writeBinFile (textOf l) ⟨contents.toArray⟩
      if executable then
        let read := { read := true, execution := true }
        let all := { read := true, write := true, execution := true }
        IO.setAccessRights (textOf l) { user := all, group := read, other := read }

/-- Puts the changes of a tree on the disk: first what is gone, the deepest entries in front, then
what is new or different. -/
def writeChanges (before after : FileTree) : IO Unit := do
  for (l, node) in before.entries.reverse do
    if (after.node? l).isNone then
      match node with
      | .directory => IO.FS.removeDir (textOf l)
      | .file _ _ => IO.FS.removeFile (textOf l)
  for (l, node) in after.entries do
    if before.node? l ≠ some node then writeNode l node

/-- Carries out the command that arguments ask for. -/
def run (args : List String) : IO UInt32 := do
  let directory := locationOf (← IO.currentDir).toString
  let root ← packageRoot directory directory
  let tree ← readTree root (treeAround root)
  let environment ← readEnvironment
  let m : Machine := { workspace := { tree, directory }, environment }
  let (reply, after) := CommandLine.run args Shell.launch m
  writeChanges tree after.workspace.tree
  (← IO.getStderr).write ⟨reply.stderr.toArray⟩
  (← IO.getStdout).write ⟨reply.stdout.toArray⟩
  return reply.code.toUInt32

end Drydock.Main

/-- The program. -/
def main (args : List String) : IO UInt32 := Drydock.Main.run args
