import Drydock.Text.Blank

/-!
# Flag lists as text

Compiler flags travel as one text: in environment variables, in manifests, in generated headers.
`Flags.split` cuts such a text into words the way a command line is cut, with quotes that group and
no escapes; `Flags.render` writes a list of words back.

The cutting is a walk through three states, `Flags.Scan`, so that statements about it can be made
for every state at once.
-/

namespace Drydock.Flags

/-- Where the scan of a flag text stands. -/
inductive Scan where
  /-- Between two words. -/
  | between
  /-- In a word, outside quotes. -/
  | bare (word : List Char)
  /-- In a word, inside quotes that `mark` closes. -/
  | quoted (mark : Char) (word : List Char)
  deriving DecidableEq, Repr

/-- Single and double quotes group characters. -/
def isQuote (c : Char) : Bool := c == '\'' || c == '"'

/-- The words that a text yields when the scan stands at the given state.  Outside quotes a blank
ends the word and a quote opens a group; inside quotes only the same quote counts.  A group that is
never closed reaches to the end. -/
def scan : Scan → List Char → List (List Char)
  | .between, [] => []
  | .bare word, [] => [word]
  | .quoted _ word, [] => [word]
  | .between, c :: rest =>
      if isQuote c then scan (.quoted c []) rest
      else if Text.isBlank c then scan .between rest
      else scan (.bare [c]) rest
  | .bare word, c :: rest =>
      if isQuote c then scan (.quoted c word) rest
      else if Text.isBlank c then word :: scan .between rest
      else scan (.bare (word ++ [c])) rest
  | .quoted mark word, c :: rest =>
      if c = mark then scan (.bare word) rest
      else scan (.quoted mark (word ++ [c])) rest

/-- The words of a flag text. -/
def splitChars (cs : List Char) : List (List Char) := scan .between cs

/-- A flag as it is written in a list: in single quotes when it holds a space. -/
def renderFlag (flag : List Char) : List Char :=
  if ' ' ∈ flag then '\'' :: flag ++ ['\''] else flag

/-- Flags separated by spaces. -/
def renderChars (flags : List (List Char)) : List Char :=
  [' '].intercalate (flags.map renderFlag)

/-- The words of a flag text. -/
def split (s : String) : List String := (splitChars s.toList).map .ofList

/-- The words of a flag text that may be absent. -/
def splitOption (s : Option String) : List String := (s.map split).getD []

/-- Flags as one text, separated by spaces, in single quotes where they hold a space. -/
def render (flags : List String) : String :=
  .ofList (renderChars (flags.map String.toList))

/-- A flag without a space is written as it is. -/
theorem renderFlag_of_no_space {flag : List Char} (h : ' ' ∉ flag) : renderFlag flag = flag := by
  simp [renderFlag, h]

end Drydock.Flags
