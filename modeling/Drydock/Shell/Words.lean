import Drydock.Glob
import Drydock.Shell.Script

/-!
# Fields and patterns

The expansion of a word gives `Piece`s.  What a script writes in quotes stays as it is; the values
of parameters outside quotes are cut at blanks; a list of arguments falls into fields of its own.

Every character remembers whether it was quoted, because only the others have a meaning in patterns.
-/

namespace Drydock.Shell

/-- A part of an expanded word. -/
inductive Piece where
  /-- Characters that belong to one field. -/
  | fixed (cs : List Char) (quoted : Bool)
  /-- Characters that are cut into fields at blanks. -/
  | loose (cs : List Char)
  /-- The end of a field. -/
  | cut
  deriving Repr

/-- Characters with the mark of quoting. -/
abbrev Field := List (Char × Bool)

/-- The text of a field. -/
def Field.text (f : Field) : String := .ofList (f.map (·.1))

/-- Fields under construction: those that are complete and the one that is open. -/
structure Fields where
  done : List Field := []
  current : Option Field := none

namespace Fields

/-- Completes the open field. -/
def close (fs : Fields) : Fields :=
  match fs.current with
  | some f => { done := fs.done ++ [f], current := none }
  | none => fs

/-- Adds characters to the open field. -/
def extend (fs : Fields) (f : Field) : Fields :=
  { fs with current := some (fs.current.getD [] ++ f) }

/-- Adds a character that may end a field. -/
def addLoose (fs : Fields) (c : Char) : Fields :=
  if c ∈ [' ', '\t', '\n'] then fs.close else fs.extend [(c, false)]

/-- Adds a piece. -/
def add (fs : Fields) : Piece → Fields
  | .fixed [] false => fs
  | .fixed cs quoted => fs.extend (cs.map (·, quoted))
  | .loose cs => cs.foldl addLoose fs
  | .cut => fs.close

end Fields

/-- The fields of an expanded word. -/
def fieldsOf (pieces : List Piece) : List Field := (pieces.foldl Fields.add {}).close.done

/-- The characters of an expanded word that is not cut into fields. -/
def joinPieces (pieces : List Piece) : Field :=
  pieces.flatMap fun
    | .fixed cs quoted => cs.map (·, quoted)
    | .loose cs => cs.map (·, false)
    | .cut => [(' ', false)]

/-! ## Patterns -/

/-- The inside of a character class and what follows its closing bracket. -/
def classOf? (f : Field) : Option (List Char × Field) :=
  match f with
  | [] => none
  | first :: rest =>
      match rest.dropWhile (fun e => e.1 ≠ ']') with
      | [] => none
      | _ :: behind => some (first.1 :: (rest.takeWhile fun e => e.1 ≠ ']').map (·.1), behind)

/-- The tokens of a pattern. -/
def patternOf (f : Field) : List Glob.Token :=
  match f with
  | [] => []
  | (c, quoted) :: rest =>
      if quoted then .char c :: patternOf rest
      else if c = '*' then .anySequence :: patternOf rest
      else if c = '?' then .anyChar :: patternOf rest
      else if c = '[' then
        let negated := rest.head?.any fun e => e.1 ∈ ['!', '^']
        match classOf? (if negated then rest.tail else rest) with
        | some (inside, behind) =>
            if behind.length ≤ rest.length then
              let items := Glob.classItems inside
              (if negated then Glob.Token.noneOf items else .anyOf items) :: patternOf behind
            else .char c :: patternOf rest
        | none => .char c :: patternOf rest
      else .char c :: patternOf rest
termination_by f.length

/-- Whether a text matches a pattern. -/
def matchesPattern (pattern : Field) (text : String) : Bool :=
  Glob.matchesName (patternOf pattern) text.toList

/-- The files that a field stands for: those it matches where it is a pattern, and otherwise its own
text. -/
def filesOf (w : Workspace) (f : Field) : List String :=
  let active := f.any fun e => !e.2 && e.1 ∈ ['*', '?', '[']
  let inert := f.any fun e => e.2 && e.1 ∈ ['*', '?', '[']
  if active && !inert then
    match Glob.Query.parse ⟨f.text⟩ with
    | .error _ => [f.text]
    | .ok query =>
        let hidden := fun (p : Path) =>
          p.fileName?.any fun name => name.startsWith "." && !f.text.startsWith "."
        match Path.sort ((query.run w).filter fun p => !hidden p) with
        | [] => [f.text]
        | found => found.map Path.text
  else [f.text]

/-- What is left of a text when a match of a pattern is taken from one end. -/
def trimMatch (atEnd longest : Bool) (pattern : Field) (text : String) : String :=
  let cs := text.toList
  let sizes := List.range (cs.length + 1)
  let order := if longest then sizes.reverse else sizes
  let piece := fun n => if atEnd then cs.drop (cs.length - n) else cs.take n
  match order.find? fun n => Glob.matchesName (patternOf pattern) (piece n) with
  | some n => .ofList (if atEnd then cs.take (cs.length - n) else cs.drop n)
  | none => text

end Drydock.Shell
