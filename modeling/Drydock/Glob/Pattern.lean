import Drydock.Error

/-!
# File patterns

A pattern is a path in which `?` stands for one character, `*` for any characters of a name,
`[abc]`, `[a-z]` and `[!abc]` for one character of a class, and `**`, as a whole component, for any
number of directories.

* `Glob.parse` — reads a pattern, or names the position of its fault.
* `Glob.matchesName` — whether a name matches the tokens of a component.
* `Glob.hasMark` — whether a text is a pattern at all.
-/

namespace Drydock.Glob

/-- A member of a character class. -/
inductive ClassItem where
  | single (c : Char)
  | range (low high : Char)
  deriving DecidableEq, Repr

/-- Whether a character belongs to an item. -/
def ClassItem.holds (c : Char) : ClassItem → Bool
  | single d => c = d
  | range low high => low ≤ c && c ≤ high

/-- A part of a pattern. -/
inductive Token where
  | char (c : Char)
  | anyChar
  | anyOf (items : List ClassItem)
  | noneOf (items : List ClassItem)
  /-- Written `*`. -/
  | anySequence
  /-- Written `**`. -/
  | anyDirectories
  deriving DecidableEq, Repr

/-- Reads the inside of a class; a range is written with a hyphen. -/
def classItems : List Char → List ClassItem
  | low :: '-' :: high :: rest => .range low high :: classItems rest
  | c :: rest => .single c :: classItems rest
  | [] => []

/-- The characters in front of the first closing bracket, and those behind it. -/
def untilBracket : List Char → Option (List Char × List Char)
  | [] => none
  | ']' :: rest => some ([], rest)
  | c :: rest => (untilBracket rest).map fun (inside, behind) => (c :: inside, behind)

/-- Reads a class behind its opening bracket.  A class is not empty, so a closing bracket that
stands first belongs to it. -/
def class? : List Char → Option (Token × List Char)
  | '!' :: first :: rest =>
      (untilBracket rest).map fun (inside, behind) =>
        (.noneOf (classItems (first :: inside)), behind)
  | '!' :: [] => none
  | first :: rest =>
      (untilBracket rest).map fun (inside, behind) =>
        (.anyOf (classItems (first :: inside)), behind)
  | [] => none

/-- The fault of a class that is not closed. -/
def invalidRange (position : Nat) : PatternError := ⟨position, "invalid range pattern"⟩

/-- The fault of three stars in a row. -/
def tooManyStars (position : Nat) : PatternError :=
  ⟨position, "wildcards are either regular `*` or recursive `**`"⟩

/-- The fault of two stars that are not a whole component. -/
def starsInName (position : Nat) : PatternError :=
  ⟨position, "recursive wildcards must form a single path component"⟩

/-- Reads the tokens of a pattern.  `position` counts the characters read, and `fresh` says whether
a component starts here. -/
def parseFrom (position : Nat) (fresh : Bool) (cs : List Char) : Except PatternError (List Token) :=
  match cs with
  | [] => .ok []
  | '?' :: rest => do return .anyChar :: (← parseFrom (position + 1) false rest)
  | '*' :: '*' :: '*' :: _ => .error (tooManyStars (position + 2))
  | '*' :: '*' :: rest =>
      if !fresh then .error (starsInName (position - 1))
      else
        match rest with
        | [] => .ok [.anyDirectories]
        | '/' :: rest => do return .anyDirectories :: (← parseFrom (position + 3) true rest)
        | _ => .error (starsInName (position + 2))
  | '*' :: rest => do return .anySequence :: (← parseFrom (position + 1) false rest)
  | '[' :: rest =>
      match class? rest with
      | some (token, behind) =>
          if behind.length < rest.length then do
            let read := rest.length - behind.length
            return token :: (← parseFrom (position + 1 + read) false behind)
          else .error (invalidRange position)
      | none => .error (invalidRange position)
  | c :: rest => do return .char c :: (← parseFrom (position + 1) (c = '/') rest)
termination_by cs.length

/-- Reads the tokens of a pattern. -/
def parse (pattern : List Char) : Except PatternError (List Token) := parseFrom 0 true pattern

/-- Whether a text holds a mark of a pattern. -/
def hasMark (s : String) : Bool := s.toList.any (· ∈ ['*', '?', '['])

/-- The ends of a list, from the whole list to the empty one. -/
def suffixes : List Char → List (List Char)
  | [] => [[]]
  | c :: rest => (c :: rest) :: suffixes rest

/-- Whether a token that stands for one character stands for this one. -/
def Token.accepts (c : Char) : Token → Bool
  | char d => c = d
  | anyChar => true
  | anyOf items => items.any (·.holds c)
  | noneOf items => !items.any (·.holds c)
  | anySequence => false
  | anyDirectories => false

/-- Whether a name matches the tokens of a component. -/
def matchesName : List Token → List Char → Bool
  | [], name => name = []
  | .anySequence :: tokens, name => (suffixes name).any (matchesName tokens)
  | token :: tokens, c :: name => token.accepts c && matchesName tokens name
  | _ :: _, [] => false

/-- The text of tokens that all stand for themselves. -/
def literal? : List Token → Option (List Char)
  | [] => some []
  | .char c :: tokens => (literal? tokens).map (c :: ·)
  | _ => none

end Drydock.Glob
