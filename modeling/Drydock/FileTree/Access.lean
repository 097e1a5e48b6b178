import Drydock.FileTree.Locate

/-!
# Reading and changing files

The operations that a run and its tools carry out on a tree.  Each names the reasons for which the
operating system would refuse it.
-/

namespace Drydock.Workspace

/-- The bytes of a file. -/
def readBytes (w : Workspace) (p : Path) : Except IoError Bytes := do
  match ← w.stat p with
  | .file contents _ => return contents
  | .directory => throw .isADirectory

/-- The text of a file. -/
def readText (w : Workspace) (p : Path) : Except IoError String := do
  match Text.Utf8.decode? (← w.readBytes p) with
  | some text => return text
  | none => throw .notText

/-- Places a node in the tree. -/
def place (w : Workspace) (l : Location) (node : Node) : Workspace :=
  { w with tree := w.tree.set l node }

/-- Makes the contents of a file what `change` makes of the present ones; a missing file is created.
The directory of the file has to exist. -/
def modify (w : Workspace) (p : Path) (change : Bytes → Bytes) : Except IoError Workspace := do
  match ← w.slot p with
  | none => throw .isADirectory
  | some s =>
      if s.slashes then throw .isADirectory
      else
        match w.tree.node? s.location with
        | some .directory => throw .isADirectory
        | some (.file contents executable) =>
            return w.place s.location (.file (change contents) executable)
        | none => return w.place s.location (.file (change []) false)

/-- Writes a file, replacing its contents. -/
def write (w : Workspace) (p : Path) (contents : Bytes) : Except IoError Workspace :=
  w.modify p fun _ => contents

/-- Appends to a file. -/
def append (w : Workspace) (p : Path) (contents : Bytes) : Except IoError Workspace :=
  w.modify p (· ++ contents)

/-- Marks a file as a program. -/
def markExecutable (w : Workspace) (p : Path) : Except IoError Workspace := do
  let l ← w.locate p
  match w.tree.node? l with
  | some (.file contents _) => return w.place l (.file contents true)
  | _ => return w

/-- Makes one directory. -/
def makeDirectory (w : Workspace) (p : Path) : Except IoError Workspace := do
  match ← w.slot p with
  | none => throw .exists
  | some s =>
      if (w.tree.node? s.location).isSome then throw .exists
      else return w.place s.location .directory

/-- Makes a directory, or leaves one that is there. -/
def ensureOne (w : Workspace) (p : Path) : Except IoError Unit × Workspace :=
  match w.makeDirectory p with
  | .ok made => (.ok (), made)
  | .error e => (if w.isDirectory p then .ok () else .error e, w)

/-- Makes a directory and those above it, at most the given number of levels up.  The directories
made before a refusal stay. -/
def makeDirectoriesUpTo : Nat → Workspace → Path → Except IoError Unit × Workspace
  | levels, w, p =>
      if p.text = "" then (.ok (), w)
      else
        match w.makeDirectory p with
        | .ok made => (.ok (), made)
        | .error .notFound =>
            match levels, p.parent? with
            | levels + 1, some parent =>
                match makeDirectoriesUpTo levels w parent with
                | (.ok (), made) => made.ensureOne p
                | refused => refused
            | _, _ => (.error .notFound, w)
        | .error e => (if w.isDirectory p then .ok () else .error e, w)

/-- Makes a directory and those above it. -/
def makeDirectories (w : Workspace) (p : Path) : Except IoError Unit × Workspace :=
  makeDirectoriesUpTo p.components.length w p

/-- Removes a file. -/
def remove (w : Workspace) (p : Path) : Except IoError Workspace := do
  let l ← w.locate p
  match w.tree.node? l with
  | some (.file _ _) => return { w with tree := w.tree.erase l }
  | some .directory => throw .isADirectory
  | none => throw .notFound

end Drydock.Workspace
