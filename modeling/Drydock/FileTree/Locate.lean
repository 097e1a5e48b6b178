import Drydock.Error
import Drydock.FileTree

/-!
# From paths to locations

A path is walked name by name from the root or from the working directory.  Every name on the way
has to be that of a directory; `..` leads to the directory above.

* `Workspace` — a tree with a working directory.
* `Workspace.locate` — the location a path leads to.
* `Workspace.slot` — the location at which a path would create a file.
-/

namespace Drydock

/-- A file tree seen from a working directory. -/
structure Workspace where
  tree : FileTree
  directory : Location := []
  deriving DecidableEq, Inhabited, Repr

namespace Workspace

/-- The most bytes a name may have. -/
def nameLimit : Nat := 255

/-- Takes one step of a walk.  It starts at a directory. -/
def step (t : FileTree) (at_ : Location) (piece : List Char) : Except IoError Location :=
  if !t.isDirectoryAt at_ then .error .notADirectory
  else if piece = [] ∨ piece = ['.'] then .ok at_
  else if piece = ['.', '.'] then .ok at_.dropLast
  else
    let name := String.ofList piece
    if nameLimit < name.utf8ByteSize then .error .nameTooLong
    else if (t.node? (at_ ++ [name])).isSome then .ok (at_ ++ [name])
    else .error .notFound

/-- Walks along the pieces of a path. -/
def walk (t : FileTree) (start : Location) (pieces : List (List Char)) :
    Except IoError Location :=
  pieces.foldlM (step t) start

/-- Where the walk of a path starts, and the pieces it goes along. -/
def route (w : Workspace) (p : Path) : Location × List (List Char) :=
  let pieces := Text.splitChars '/' p.text.toList
  if p.isAbsolute then ([], pieces.tail) else (w.directory, pieces)

/-- A path that may be walked: one that is not empty and holds no NUL. -/
def checkPath (p : Path) : Except IoError Unit :=
  if '\x00' ∈ p.text.toList then .error .nulInPath
  else if p.text = "" then .error .notFound
  else .ok ()

/-- The location that a path leads to. -/
def locate (w : Workspace) (p : Path) : Except IoError Location := do
  checkPath p
  let (start, pieces) := w.route p
  walk w.tree start pieces

/-- What stands where a path leads to. -/
def stat (w : Workspace) (p : Path) : Except IoError Node := do
  let l ← w.locate p
  match w.tree.node? l with
  | some node => return node
  | none => throw .notFound

/-- Whether a path leads anywhere. -/
def «exists» (w : Workspace) (p : Path) : Bool := (w.stat p).toOption.isSome

/-- Whether a path leads to a directory. -/
def isDirectory (w : Workspace) (p : Path) : Bool := (w.stat p).toOption = some .directory

/-- Whether a path leads to a file. -/
def isFile (w : Workspace) (p : Path) : Bool :=
  match w.stat p with
  | .ok (.file _ _) => true
  | _ => false

/-- Where a path would put a new entry. -/
structure Slot where
  parent : Location
  name : String
  /-- Whether slashes follow the name. -/
  slashes : Bool

/-- The location of a slot. -/
def Slot.location (s : Slot) : Location := s.parent ++ [s.name]

/-- The directory and the name that a path ends with.  A path that ends with `.`, `..` or at the
root has no name, and nothing can be created there. -/
def slot (w : Workspace) (p : Path) : Except IoError (Option Slot) := do
  checkPath p
  let (start, pieces) := w.route p
  let named := (pieces.reverse.dropWhile (· = [])).reverse
  match named.getLast? with
  | none => return none
  | some last =>
      let parent ← walk w.tree start named.dropLast
      if !w.tree.isDirectoryAt parent then throw .notADirectory
      else if last = ['.'] ∨ last = ['.', '.'] then return none
      else
        let name := String.ofList last
        if nameLimit < name.utf8ByteSize then throw .nameTooLong
        else return some ⟨parent, name, named.length < pieces.length⟩

end Workspace

end Drydock
