/-!
# Blank characters, trimming, words and lines

Texts that a build reads — flag lists, symbol listings, variable reports, headers — are cut at
blank characters and at line ends.  Both are fixed here once for the whole library.

Everything works on lists of characters; the operations on `String` wrap them.

* `isBlank` — the characters with the Unicode property `White_Space`.
* `trim`, `words`, `lines`, `splitOnce` — the cuts.
-/

namespace Drydock.Text

/-- A character is blank when it has the Unicode property `White_Space`: the controls from tab to
carriage return, the next-line control, the spaces of every width, and the line and paragraph
separators.  Zero-width marks and the information separators are not blank. -/
def isBlank (c : Char) : Bool :=
  let n := c.toNat
  (0x09 ≤ n && n ≤ 0x0d) || n == 0x20 || n == 0x85 || n == 0xa0 || n == 0x1680 ||
    (0x2000 ≤ n && n ≤ 0x200a) || n == 0x2028 || n == 0x2029 || n == 0x202f || n == 0x205f ||
    n == 0x3000

/-- Drops the blank characters on both sides. -/
def trimChars (cs : List Char) : List Char :=
  ((cs.dropWhile isBlank).reverse.dropWhile isBlank).reverse

/-- The maximal runs of characters that are not blank, where `run` is the run read so far. -/
def wordsFrom (run : List Char) : List Char → List (List Char)
  | [] => if run = [] then [] else [run]
  | c :: rest =>
      if isBlank c then
        if run = [] then wordsFrom [] rest else run :: wordsFrom [] rest
      else wordsFrom (run ++ [c]) rest

/-- The maximal runs of characters that are not blank, from left to right. -/
def wordChars (cs : List Char) : List (List Char) := wordsFrom [] cs

/-- Cuts at every occurrence of `sep`; there is one piece more than there are occurrences. -/
def splitChars (sep : Char) : List Char → List (List Char)
  | [] => [[]]
  | c :: rest =>
      match splitChars sep rest with
      | [] => [[c]]
      | piece :: pieces => if c = sep then [] :: piece :: pieces else (c :: piece) :: pieces

/-- Drops one carriage return at the end. -/
def dropReturn (line : List Char) : List Char :=
  match line.reverse with
  | '\r' :: body => body.reverse
  | _ => line

/-- Cuts after every line feed.  A carriage return directly before a line feed belongs to the line
end, and text that ends with a line feed has no empty last line. -/
def lineChars (cs : List Char) : List (List Char) :=
  let pieces := splitChars '\n' cs
  pieces.dropLast.map dropReturn ++ (pieces.getLast?.toList.filter (· ≠ []))

/-- The parts before and after the first occurrence of `sep`. -/
def splitOnceChars (sep : Char) : List Char → Option (List Char × List Char)
  | [] => none
  | c :: rest =>
      if c = sep then some ([], rest)
      else (splitOnceChars sep rest).map fun (before, after) => (c :: before, after)

/-- Drops the blank characters on both sides of a text. -/
def trim (s : String) : String := .ofList (trimChars s.toList)

/-- The words of a text: its maximal runs of characters that are not blank. -/
def words (s : String) : List String := (wordChars s.toList).map .ofList

/-- The lines of a text. -/
def lines (s : String) : List String := (lineChars s.toList).map .ofList

/-- The parts of a text before and after the first occurrence of `sep`. -/
def splitOnce (sep : Char) (s : String) : Option (String × String) :=
  (splitOnceChars sep s.toList).map fun (before, after) => (.ofList before, .ofList after)

/-- Drops `start` where the text begins with it. -/
def dropStart? (start : List Char) (cs : List Char) : Option (List Char) :=
  if start.isPrefixOf cs then some (cs.drop start.length) else none

/-- Whether some character of the text is blank. -/
def hasBlank (s : String) : Bool := s.toList.any isBlank

end Drydock.Text
