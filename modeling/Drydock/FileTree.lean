import Drydock.Text.Utf8

/-!
# File trees

A `FileTree` is the set of files and directories that a run sees, without links.  A `Location` is
the list of names from the root to an entry; the root itself is always a directory.

* `FileTree.node?` — what stands at a location, the view through which trees are compared.
* `FileTree.children` — the names in a directory.
* `FileTree.set`, `FileTree.erase`, `FileTree.eraseBelow` — the changes of a tree.
-/

namespace Drydock

/-- The names from the root to an entry. -/
abbrev Location := List String

/-- An entry of a file tree. -/
inductive Node where
  | file (contents : Bytes) (executable : Bool)
  | directory
  deriving DecidableEq, Inhabited, Repr

/-- Files and directories by location. -/
structure FileTree where
  entries : List (Location × Node)
  deriving DecidableEq, Inhabited, Repr

namespace FileTree

/-- The tree that holds nothing but its root. -/
def empty : FileTree := ⟨[]⟩

/-- What stands at a location. -/
def node? (t : FileTree) (l : Location) : Option Node :=
  if l = [] then some .directory else t.entries.lookup l

/-- Whether a directory stands at a location. -/
def isDirectoryAt (t : FileTree) (l : Location) : Bool := t.node? l = some .directory

/-- The names in a directory. -/
def children (t : FileTree) (l : Location) : List String :=
  t.entries.filterMap fun e => if e.1.dropLast = l then e.1.getLast? else none

/-- Replaces the node of a location among entries, or adds it behind them. -/
def setEntry (l : Location) (node : Node) : List (Location × Node) → List (Location × Node)
  | [] => [(l, node)]
  | e :: rest => if e.1 = l then (l, node) :: rest else e :: setEntry l node rest

/-- Places a node at a location. -/
def set (t : FileTree) (l : Location) (node : Node) : FileTree := ⟨setEntry l node t.entries⟩

/-- Takes away what stands at a location. -/
def erase (t : FileTree) (l : Location) : FileTree := ⟨t.entries.filter (·.1 ≠ l)⟩

/-- Takes away what stands at a location and everything below it. -/
def eraseBelow (t : FileTree) (l : Location) : FileTree :=
  ⟨t.entries.filter fun e => !l.isPrefixOf e.1⟩

theorem lookup_cons_of_ne {k l : Location} (h : k ≠ l) (node : Node)
    (rest : List (Location × Node)) : List.lookup k ((l, node) :: rest) = rest.lookup k := by
  simp [List.lookup_cons, beq_eq_false_iff_ne.2 h]

theorem lookup_setEntry (l k : Location) (node : Node) (entries : List (Location × Node)) :
    (setEntry l node entries).lookup k = if k = l then some node else entries.lookup k := by
  induction entries with
  | nil =>
      by_cases h : k = l
      · simp [setEntry, h]
      · simp [setEntry, lookup_cons_of_ne h, h]
  | cons e rest ih =>
      obtain ⟨m, old⟩ := e
      simp only [setEntry]
      split
      · rename_i same
        subst same
        by_cases h : k = m
        · simp [h]
        · simp [lookup_cons_of_ne h, h]
      · rename_i other
        by_cases h : k = m
        · subst h
          simp [other]
        · rw [lookup_cons_of_ne h, lookup_cons_of_ne h, ih]

/-- Placing a node changes its own location only. -/
theorem node?_set (t : FileTree) (l k : Location) (node : Node) (h : l ≠ []) :
    (t.set l node).node? k = if k = l then some node else t.node? k := by
  by_cases hk : k = []
  · subst hk
    simp [node?, Ne.symm h]
  · simp [node?, set, lookup_setEntry, hk]

end FileTree

end Drydock
