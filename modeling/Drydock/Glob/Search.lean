import Drydock.FileTree.Locate
import Drydock.Glob.Pattern

/-!
# Searching a tree for a pattern

A pattern is matched component by component, from the directory it starts in.  A component without
marks is joined to the path as it is written, so that the spelling of a pattern survives in its
matches; a component with marks is compared with the names in the directory.

The matches are listed in the order in which a walk meets them: names rising, a directory in front
of what it holds.
-/

namespace Drydock.Glob

/-- One component of a pattern. -/
inductive Part where
  /-- A component without marks. -/
  | plain (name : List Char)
  /-- A component with marks. -/
  | marked (tokens : List Token)
  /-- Any number of directories. -/
  | directories
  deriving DecidableEq, Repr

/-- The part that the tokens of a component are. -/
def Part.ofTokens (tokens : List Token) : Part :=
  if tokens = [.anyDirectories] then .directories
  else
    match literal? tokens with
    | some name => .plain name
    | none => .marked tokens

/-- Whether a name matches a part. -/
def Part.matchesName (name : String) : Part → Bool
  | plain text => text = name.toList
  | marked tokens => Glob.matchesName tokens name.toList
  | directories => false

/-- Leaves one of several neighbouring components that stand for any directories. -/
def collapse : List Part → List Part
  | [] => []
  | .directories :: rest =>
      match collapse rest with
      | .directories :: tail => .directories :: tail
      | parts => .directories :: parts
  | part :: rest => part :: collapse rest

/-- A pattern that is ready to be searched for. -/
structure Query where
  /-- Whether the search starts at the root. -/
  absolute : Bool
  parts : List Part
  /-- Whether only directories are looked for. -/
  directoriesOnly : Bool
  deriving DecidableEq, Repr

/-- The pieces of a text between slashes; a slash at the end opens no piece. -/
def piecesOf (cs : List Char) : List (List Char) :=
  let pieces := Text.splitChars '/' cs
  if pieces.getLast? = some [] then pieces.dropLast else pieces

/-- Reads a pattern.  The whole pattern is read first, so that its faults are reported with their
position in it, and then every component by itself. -/
def Query.parse (pattern : Path) : Except PatternError Query := do
  let cs := pattern.text.toList
  let _ ← Glob.parse cs
  let body := if pattern.isAbsolute then cs.drop 1 else cs
  let parts ← (piecesOf body).mapM fun piece => (Glob.parse piece).map Part.ofTokens
  return {
    absolute := pattern.isAbsolute
    parts := collapse (if body = [] then [.plain []] else parts)
    directoriesOnly := cs.getLast? = some '/' }

/-! ## The walk -/

/-- Whether a path is the directory that relative patterns start in. -/
def isStart (p : Path) : Bool := p.components = [.here]

/-- The path of a name in a directory.  In the starting directory the name stands alone. -/
def child (dir : Path) (name : String) : Path := if isStart dir then ⟨name⟩ else dir.join ⟨name⟩

/-- The names in a directory, rising. -/
def namesIn (w : Workspace) (dir : Path) : List String :=
  match w.locate dir with
  | .ok l => (w.tree.children l).mergeSort fun a b => a ≤ b
  | .error _ => []

/-- Everything in a directory down to a depth, each directory in front of what it holds, with the
name of every path. -/
def descendants (w : Workspace) : Nat → Path → List (Path × String)
  | 0, _ => []
  | depth + 1, dir =>
      (namesIn w dir).flatMap fun name =>
        let path := child dir name
        (path, name) :: (if w.isDirectory path then descendants w depth path else [])

/-- The length of the longest location of a tree. -/
def depthOf (t : FileTree) : Nat := (t.entries.map (·.1.length)).foldl max 0

/-- The names `.` and `..`, where a component that starts with a dot matches them. -/
def specials (tokens : List Token) : List String :=
  if tokens.head? = some (.char '.') then
    ["..", "."].filter fun name => matchesName tokens name.toList
  else []

/-- The paths at which the parts of a pattern end, from a directory or file that the parts in front
of them led to. -/
def search (w : Workspace) (accept : Path → Bool) : List Part → Path → List Path
  | [], path => if accept path then [path] else []
  | .plain name :: parts, dir =>
      let next := child dir (.ofList name)
      let special := name = ['.'] ∨ name = ['.', '.']
      let present := if special then w.isDirectory dir else w.exists next
      if present then search w accept parts next else []
  | .marked tokens :: parts, dir =>
      if w.isDirectory dir then
        (specials tokens).flatMap (fun name => search w accept parts (dir.join ⟨name⟩)) ++
          ((namesIn w dir).filter fun name => matchesName tokens name.toList).flatMap
            fun name => search w accept parts (child dir name)
      else []
  | [.directories], dir =>
      if w.isDirectory dir then
        ((descendants w (depthOf w.tree) dir).map (·.1)).filter w.isDirectory
      else []
  | .directories :: part :: parts, dir =>
      if w.isDirectory dir then
        ((descendants w (depthOf w.tree) dir).filter fun e => part.matchesName e.2).flatMap
          fun e => search w accept parts e.1
      else []

/-- The matches of a query, in the order of the walk. -/
def Query.run (q : Query) (w : Workspace) : List Path :=
  let accept := fun path => !q.directoriesOnly || w.isDirectory path
  search w accept q.parts (if q.absolute then ⟨"/"⟩ else ⟨"."⟩)

end Drydock.Glob
