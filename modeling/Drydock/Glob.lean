import Drydock.Glob.Search

/-!
# Files that match patterns

* `Glob.matching` — the files that match one pattern below a directory, sorted.
* `Glob.files` — the files that match some of several patterns, sorted, each one once.
* `Glob.expand` — source lists: plain paths as they are and patterns by their files, in the order
  of the list, each path once.
-/

namespace Drydock.Glob

/-- The files that match a pattern below `base`, sorted. -/
def matching (w : Workspace) (base : Path) (pattern : String) :
    Except PatternError (List Path) := do
  let query ← Query.parse (base.join ⟨pattern⟩)
  return Path.sort ((query.run w).filter w.isFile)

/-- Reports the fault of a pattern. -/
def faultOf (pattern : String) (e : PatternError) : Failure :=
  { during := [.matching pattern], cause := .pattern e }

/-- The files that match a pattern, with the pattern named in a failure. -/
def matchingOrFail (w : Workspace) (base : Path) (pattern : String) :
    Except Failure (List Path) :=
  (matching w base pattern).mapError (faultOf pattern)

/-- The files below `base` that match some of the patterns, sorted, each one once. -/
def files (w : Workspace) (base : Path) (patterns : List String) : Except Failure (List Path) := do
  let found ← patterns.mapM (matchingOrFail w base)
  return Path.dedupNeighbours (Path.sort found.flatten)

/-- The paths that one entry of a source list stands for.  A plain path need not exist, so that the
compiler can report it missing. -/
def expandOne (w : Workspace) (base : Path) (pattern : String) : Except Failure (List Path) :=
  if hasMark pattern then matchingOrFail w base pattern else .ok [base.join ⟨pattern⟩]

/-- Drops every path that is the same as one in front of it, or as one of `seen`. -/
def keepFirst (seen : List Path) : List Path → List Path
  | [] => []
  | p :: rest =>
      if seen.any fun q => decide (p.Same q) then keepFirst seen rest
      else p :: keepFirst (p :: seen) rest

/-- The paths that a source list stands for, in its order, each one once. -/
def expand (w : Workspace) (base : Path) (patterns : List String) : Except Failure (List Path) := do
  return keepFirst [] (← patterns.mapM (expandOne w base)).flatten

end Drydock.Glob
