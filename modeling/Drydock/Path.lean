import Drydock.Text.Blank

/-!
# Paths as written, compared by components

A `Path` keeps the text it was written with: joining never normalises, and what a user wrote is
what is printed and handed to tools.  Two paths are compared by their *components*, in which
repeated slashes, a `.` that is not the first word, and a trailing slash do not count.

* `Path.components` — the view by which paths are compared, ordered and stripped.
* `Path.join` — puts one path behind another; an absolute right side replaces the left one.
* `Path.parent?`, `Path.ancestors`, `Path.fileName?` — the usual projections.
* `Path.Same` — equality by components; `Path.le` — the order that lists of files are sorted by.
-/

namespace Drydock

/-- A file path as it was written. -/
structure Path where
  text : String
  deriving DecidableEq, Inhabited, Repr

/-- One step of a path. -/
inductive Component where
  /-- The leading slash of an absolute path. -/
  | root
  /-- A leading `.` of a relative path. -/
  | here
  /-- The parent directory, `..`. -/
  | up
  /-- A name. -/
  | name (s : String)
  deriving DecidableEq, Inhabited, Repr

namespace Component

/-- Root, `.`, `..` and names stand in this order. -/
def rank : Component → Nat
  | root => 0
  | here => 1
  | up => 2
  | name _ => 3

/-- Components are ordered by kind, names among themselves by code points. -/
def lt : Component → Component → Bool
  | name a, name b => a < b
  | a, b => a.rank < b.rank

end Component

namespace Path

instance : ToString Path := ⟨Path.text⟩

/-- A path is absolute when it starts with a slash. -/
def isAbsolute (p : Path) : Bool := p.text.toList.head? = some '/'

/-- The component a piece between two slashes stands for, behind the first piece of a relative
path. -/
def bodyComponent (piece : List Char) : Option Component :=
  if piece = [] ∨ piece = ['.'] then none
  else if piece = ['.', '.'] then some .up
  else some (.name (.ofList piece))

/-- The components of a path. -/
def components (p : Path) : List Component :=
  match Text.splitChars '/' p.text.toList with
  | [] => []
  | first :: rest =>
      let start :=
        if p.isAbsolute then [Component.root]
        else if first = ['.'] then [.here]
        else (bodyComponent first).toList
      start ++ rest.filterMap bodyComponent

/-- Two paths are the same path when they have the same components. -/
def Same (p q : Path) : Prop := p.components = q.components

instance : DecidableRel Same := fun p q => inferInstanceAs (Decidable (p.components = q.components))

/-- Lexicographic order of component lists. -/
def componentsLe : List Component → List Component → Bool
  | [], _ => true
  | _ :: _, [] => false
  | a :: as, b :: bs => if a = b then componentsLe as bs else a.lt b

/-- The order of paths, component by component. -/
def le (p q : Path) : Bool := componentsLe p.components q.components

/-- Puts `q` behind `p`, with a slash between them unless `p` is empty or ends with one. -/
def join (p q : Path) : Path :=
  if q.isAbsolute ∨ p.text = "" then q
  else if p.text.toList.getLast? = some '/' then ⟨p.text ++ q.text⟩
  else ⟨p.text ++ "/" ++ q.text⟩

/-- The pieces between slashes, the last one first. -/
def reversedPieces (cs : List Char) : List (List Char) := (Text.splitChars '/' cs).reverse

/-- Drops the pieces at the end of a path that stand for no component.  The first piece of a
relative path, which stays last in this list, is kept when it is `.`. -/
def dropIdle (relative : Bool) : List (List Char) → List (List Char)
  | [] => []
  | [piece] => if piece = [] ∨ (piece = ['.'] ∧ relative = false) then [] else [piece]
  | piece :: rest => if piece = [] ∨ piece = ['.'] then dropIdle relative rest else piece :: rest

/-- Puts pieces, the last one first, together with slashes. -/
def assemble (pieces : List (List Char)) : List Char := (['/'].intercalate pieces.reverse)

/-- The path without its last component; a root and the empty path have none. -/
def parent? (p : Path) : Option Path :=
  match p.components.getLast? with
  | none => none
  | some .root => none
  | some _ =>
      if p.isAbsolute then
        let body := dropIdle false (reversedPieces (p.text.toList.drop 1))
        some ⟨.ofList ('/' :: assemble (dropIdle false body.tail))⟩
      else
        let body := dropIdle true (reversedPieces p.text.toList)
        some ⟨.ofList (assemble (dropIdle true body.tail))⟩

/-- The path and its parents, the given number of steps at most. -/
def ancestorsUpTo : Nat → Path → List Path
  | 0, p => [p]
  | n + 1, p => p :: (p.parent?.map (ancestorsUpTo n)).getD []

/-- The path and its parents, innermost first. -/
def ancestors (p : Path) : List Path := ancestorsUpTo p.components.length p

/-- The last component where it is a name. -/
def fileName? (p : Path) : Option String :=
  match p.components.getLast? with
  | some (.name s) => some s
  | _ => none

/-- What is left of the components of `p` behind those of `base`. -/
def stripComponents? (base p : List Component) : Option (List Component) :=
  if base.isPrefixOf p then some (p.drop base.length) else none

/-- The part of a file name before its last dot; a name whose only dot stands first is kept. -/
def fileStem (name : List Char) : List Char :=
  let tail := name.reverse.dropWhile (· ≠ '.')
  match tail with
  | [] => name
  | _ :: stem => if stem = [] then name else stem.reverse

/-- Keeps the first of neighbouring paths that are the same. -/
def dedupNeighbours : List Path → List Path
  | [] => []
  | [p] => [p]
  | p :: q :: rest =>
      if p.Same q then dedupNeighbours (p :: rest) else p :: dedupNeighbours (q :: rest)
termination_by ps => ps.length

/-- Sorts paths, keeping the order of those that are the same. -/
def sort (ps : List Path) : List Path := ps.mergeSort fun p q => p.le q

end Path

end Drydock
