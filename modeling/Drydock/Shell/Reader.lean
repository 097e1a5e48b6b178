import Drydock.Shell.Script
import Drydock.Text.Blank

/-!
# Reading shell scripts

`Script.parse` reads the text of a script.  The readers go down the grammar with a bound on their
depth, which the length of the text gives.
-/

namespace Drydock.Shell

/-- Spaces and tabs. -/
def isGap (c : Char) : Bool := c = ' ' || c = '\t'

/-- Characters that end a word. -/
def endsWord (c : Char) : Bool :=
  isGap c || c ∈ ['\n', ';', '&', '|', '<', '>', '(', ')']

/-- Drops gaps, continued lines and a comment. -/
def dropGaps : List Char → List Char
  | '\\' :: '\n' :: rest => dropGaps rest
  | '#' :: rest => rest.dropWhile (· ≠ '\n')
  | c :: rest => if isGap c then dropGaps rest else c :: rest
  | [] => []

/-- Drops gaps, comments and line ends, at most the given number of lines. -/
def dropLines : Nat → List Char → List Char
  | 0, cs => dropGaps cs
  | lines + 1, cs =>
      match dropGaps cs with
      | '\n' :: rest => dropLines lines rest
      | rest => rest

/-- Characters of a name. -/
def isNameChar (c : Char) : Bool := c.isAlphanum || c = '_'

/-- Parameters of one character. -/
def isSpecial (c : Char) : Bool := c ∈ ['@', '*', '#', '?', '$', '!', '-'] || c.isDigit

/-- A name at the start of a text. -/
def name? (cs : List Char) : Option (String × List Char) :=
  match cs with
  | c :: _ =>
      if isNameChar c && !c.isDigit then
        some (.ofList (cs.takeWhile isNameChar), cs.dropWhile isNameChar)
      else none
  | [] => none

/-- The text up to a single quote. -/
def untilQuote (cs : List Char) : Option (List Char × List Char) :=
  match cs.dropWhile (· ≠ '\'') with
  | _ :: rest => some (cs.takeWhile (· ≠ '\''), rest)
  | [] => none

/-- The text between back quotes, with its escapes undone. -/
def untilBackQuote : List Char → Option (List Char × List Char)
  | [] => none
  | '`' :: rest => some ([], rest)
  | '\\' :: c :: rest =>
      (untilBackQuote rest).map fun (inside, behind) =>
        (if c ∈ ['`', '\\', '$'] then c :: inside else '\\' :: c :: inside, behind)
  | c :: rest => (untilBackQuote rest).map fun (inside, behind) => (c :: inside, behind)

/-- Drops a word of the shell's own, which has to end there. -/
def keyword? (word : String) (cs : List Char) : Option (List Char) :=
  (Text.dropStart? word.toList (dropGaps cs)).bind fun rest =>
    if (rest.head?.all endsWord) then some rest else none

/-- Whether a text goes on with one of the shell's own words that end a list. -/
def atEndOfList (cs : List Char) : Bool :=
  ["then", "else", "elif", "fi", "do", "done", "esac", "\x7d"].any fun word =>
    (keyword? word cs).isSome

/-- The line that a text stands on, counted from the number of line ends in the whole script. -/
def lineOf (total : Nat) (cs : List Char) : Nat := total + 1 - cs.count '\n'

/-- The descriptor and the kind of a redirection. -/
def redirectMark? (cs : List Char) : Option ((Nat × RedirectKind) × List Char) :=
  let digits := cs.takeWhile Char.isDigit
  let given : Option Nat := if digits = [] then none else (String.ofList digits).toNat?
  match cs.drop digits.length with
  | '>' :: '>' :: rest => some ((given.getD 1, .append), rest)
  | '>' :: '&' :: rest => some ((given.getD 1, .duplicate), rest)
  | '>' :: '|' :: rest => some ((given.getD 1, .write), rest)
  | '>' :: rest => some ((given.getD 1, .write), rest)
  | '<' :: '<' :: rest => some ((given.getD 0, .document), rest)
  | '<' :: rest => some ((given.getD 0, .read), rest)
  | _ => none

/-- The name of an assignment at the start of a text, with the text behind the equals sign. -/
def assigned? (cs : List Char) : Option (String × List Char) :=
  match name? cs with
  | some (name, '=' :: rest) => some (name, rest)
  | _ => none

/-- The lines of a document up to the one that ends it, and the text behind that one.  With
`indented` the tabs before each line are dropped. -/
def documentLines (indented : Bool) (ending : List Char) :
    Nat → List Char → List Char × List Char
  | 0, _ => ([], [])
  | lines + 1, cs =>
      let line := cs.takeWhile (· ≠ '\n')
      let shown := if indented then line.dropWhile (· = '\t') else line
      match cs.drop line.length with
      | [] => (if shown = ending then [] else shown, [])
      | _ :: rest =>
          if shown = ending then ([], rest)
          else
            let (more, behind) := documentLines indented ending lines rest
            (shown ++ '\n' :: more, behind)

/-- A document that a redirection announces on the lines behind its own. -/
structure Document where
  text : List Char
  /-- Whether parameters in it have no meaning. -/
  literal : Bool
  /-- The script without the document. -/
  rest : List Char

/-- Cuts a document out of a script, behind the mark of its redirection. -/
def Document.read (cs : List Char) : Document :=
  let indented := cs.head? = some '-'
  let start := dropGaps (if indented then cs.tail else cs)
  let word := start.takeWhile fun c => !endsWord c
  let quotes := ['\'', '"', '\\']
  let behind := start.drop word.length
  let line := behind.takeWhile (· ≠ '\n')
  let below := (behind.drop line.length).drop 1
  let (text, after) :=
    documentLines indented (word.filter (· ∉ quotes)) (below.length + 1) below
  { text, literal := word.any (· ∈ quotes), rest := line ++ '\n' :: after }

/-- The text of an integer expression up to its two closing parentheses, inside of which `nested`
others are open. -/
def expressionText? (nested : Nat) : List Char → Option (List Char × List Char)
  | [] => none
  | ')' :: rest =>
      match nested, rest with
      | 0, ')' :: behind => some ([], behind)
      | 0, _ => none
      | nested + 1, _ =>
          (expressionText? nested rest).map fun (inside, behind) => (')' :: inside, behind)
  | '(' :: rest =>
      (expressionText? (nested + 1) rest).map fun (inside, behind) => ('(' :: inside, behind)
  | c :: rest => (expressionText? nested rest).map fun (inside, behind) => (c :: inside, behind)

/-- Where the parts of a word stand. -/
inductive Place where
  | bare
  /-- Between double quotes. -/
  | quoted
  /-- Between the braces of a parameter. -/
  | braced
  /-- Between the braces of a parameter in double quotes. -/
  | bracedQuoted
  /-- In a text of its own, where quotes have no meaning. -/
  | document
  deriving DecidableEq, Repr

/-- Whether double quotes are around. -/
def Place.isQuoted : Place → Bool
  | quoted => true
  | bracedQuoted => true
  | document => true
  | _ => false

/-- Whether a character can be quoted by a backslash. -/
def Place.escapes (c : Char) : Place → Bool
  | bare => true
  | braced => true
  | document => c ∈ ['$', '`', '\\']
  | _ => c ∈ ['$', '`', '"', '\\', '\x7d']

/-- Whether the end of the text ends the parts. -/
def Place.endsOpen : Place → Bool
  | bare => true
  | document => true
  | _ => false

/-- Whether a character ends the parts. -/
def Place.stops (c : Char) : Place → Bool
  | bare => endsWord c
  | quoted => c = '"'
  | braced => c = '\x7d'
  | bracedQuoted => c = '\x7d' || c = '"'
  | document => false

/-- The name of a parameter. -/
def parameterName? (cs : List Char) : Option (String × List Char) :=
  match cs with
  | c :: rest =>
      if c.isDigit then some (.ofList (cs.takeWhile Char.isDigit), cs.dropWhile Char.isDigit)
      else if isSpecial c then some (.singleton c, rest)
      else name? cs
  | [] => none

mutual

/-- Reads a dollar sign's expansion behind the sign. -/
def dollar? (total : Nat) (quoted : Bool) : Nat → List Char → Option (Part × List Char)
  | 0, _ => none
  | depth + 1, cs =>
      let expression := match cs with
        | '(' :: '(' :: rest => expressionText? 0 rest
        | _ => none
      match expression with
      | some (inside, behind) =>
          (parts? total .document depth inside).map fun (word, _) =>
            (.arithmetic word quoted, behind)
      | none =>
      match cs with
      | '(' :: rest =>
          match list? total depth rest with
          | some (script, behind) =>
              match dropLines behind.length behind with
              | ')' :: rest => some (.output script quoted, rest)
              | _ => none
          | none => none
      | '\x7b' :: rest => braced? total quoted depth rest
      | c :: rest =>
          if isSpecial c then some (.parameter (String.singleton c) .plain quoted, rest)
          else
            match name? cs with
            | some (name, rest) => some (.parameter name .plain quoted, rest)
            | none => some (.text "$" quoted, cs)
      | [] => some (.text "$" quoted, [])
termination_by structural depth _ => depth

/-- Reads a parameter between braces. -/
def braced? (total : Nat) (quoted : Bool) : Nat → List Char → Option (Part × List Char)
  | 0, _ => none
  | depth + 1, cs =>
      match cs with
      | '#' :: c :: rest =>
          if c = '\x7d' then some (.parameter "#" .plain quoted, rest)
          else
            match parameterName? (c :: rest) with
            | some (name, '\x7d' :: rest) => some (.parameter name .length quoted, rest)
            | _ => none
      | _ =>
          let around := if quoted then Place.bracedQuoted else .braced
          match parameterName? cs with
          | some (name, rest) =>
              match rest with
              | '\x7d' :: rest => some (.parameter name .plain quoted, rest)
              | ':' :: '-' :: rest => formed? total quoted around name (.fallback true) depth rest
              | ':' :: '=' :: rest =>
                  formed? total quoted around name (.assignment true) depth rest
              | ':' :: '+' :: rest =>
                  formed? total quoted around name (.alternative true) depth rest
              | '-' :: rest => formed? total quoted around name (.fallback false) depth rest
              | '=' :: rest => formed? total quoted around name (.assignment false) depth rest
              | '+' :: rest => formed? total quoted around name (.alternative false) depth rest
              | '%' :: '%' :: rest =>
                  formed? total quoted .braced name (.trimmed true true) depth rest
              | '%' :: rest => formed? total quoted .braced name (.trimmed true false) depth rest
              | '#' :: '#' :: rest =>
                  formed? total quoted .braced name (.trimmed false true) depth rest
              | '#' :: rest => formed? total quoted .braced name (.trimmed false false) depth rest
              | _ => none
          | none => none
termination_by structural depth _ => depth

/-- Reads the word of a parameter's form. -/
def formed? (total : Nat) (quoted : Bool) (place : Place) (name : String) (form : Word → Form) :
    Nat → List Char → Option (Part × List Char)
  | 0, _ => none
  | depth + 1, cs =>
      match parts? total place depth cs with
      | some (word, '\x7d' :: rest) => some (.parameter name (form word) quoted, rest)
      | _ => none
termination_by structural depth _ => depth

/-- Reads the parts of a word. -/
def parts? (total : Nat) (place : Place) : Nat → List Char → Option (Word × List Char)
  | 0, _ => none
  | depth + 1, cs =>
      match cs with
      | [] => if place.endsOpen then some ([], []) else none
      | c :: rest =>
          if place.stops c then some ([], cs)
          else
            let next : Option (Part × List Char) :=
              match c with
              | '\\' =>
                  match rest with
                  | '\n' :: behind => some (.text "" false, behind)
                  | d :: behind =>
                      if place.escapes d then some (.text (.singleton d) true, behind)
                      else some (.text (.ofList ['\\', d]) true, behind)
                  | [] => some (.text "\\" true, [])
              | '\'' =>
                  if place.isQuoted then some (.text "'" true, rest)
                  else
                    (untilQuote rest).map fun (inside, behind) =>
                      (.text (.ofList inside) true, behind)
              | '`' =>
                  match untilBackQuote rest with
                  | some (inside, behind) =>
                      (list? (inside.count '\n') depth inside).map fun (script, _) =>
                        (.output script place.isQuoted, behind)
                  | none => none
              | '$' => dollar? total place.isQuoted depth rest
              | _ => some (.text (.singleton c) place.isQuoted, rest)
            if c = '"' && !place.isQuoted then
              match parts? total .quoted depth rest with
              | some (inside, '"' :: behind) =>
                  (parts? total place depth behind).map fun (parts, behind) =>
                    (.text "" true :: inside ++ parts, behind)
              | _ => none
            else
              match next with
              | some (part, behind) =>
                  (parts? total place depth behind).map fun (parts, behind) =>
                    (part :: parts, behind)
              | none => none
termination_by structural depth _ => depth

/-- Reads a word, which is not empty. -/
def word? (total : Nat) : Nat → List Char → Option (Word × List Char)
  | 0, _ => none
  | depth + 1, cs =>
      match parts? total .bare depth (dropGaps cs) with
      | some ([], _) => none
      | found => found
termination_by structural depth _ => depth

/-- Reads words up to one that is none. -/
def words? (total : Nat) : Nat → List Char → Option (List Word × List Char)
  | 0, _ => none
  | depth + 1, cs =>
      match word? total depth cs with
      | some (word, behind) =>
          (words? total depth behind).map fun (words, behind) => (word :: words, behind)
      | none => some ([], cs)
termination_by structural depth _ => depth

/-- Reads what a redirection leads to. -/
def target? (total : Nat) (kind : RedirectKind) : Nat → List Char → Option (Word × List Char)
  | 0, _ => none
  | depth + 1, cs =>
      match kind with
      | .document =>
          let d := Document.read cs
          if d.literal then some ([.text (.ofList d.text) true], d.rest)
          else (parts? total .document depth d.text).map fun (word, _) => (word, d.rest)
      | _ => word? total depth cs
termination_by structural depth _ => depth

/-- Reads redirections. -/
def redirects? (total : Nat) : Nat → List Char → Option (List Redirect × List Char)
  | 0, _ => none
  | depth + 1, cs =>
      match redirectMark? (dropGaps cs) with
      | some ((descriptor, kind), rest) =>
          match target? total kind depth rest with
          | some (target, behind) =>
              (redirects? total depth behind).map fun (redirects, behind) =>
                (.mk descriptor kind target :: redirects, behind)
          | none => none
      | none => some ([], cs)
termination_by structural depth _ => depth

/-- Reads the rest of a simple command. -/
def simple? (total line : Nat) (assignments : List (String × Word)) (words : List Word)
    (redirects : List Redirect) : Nat → List Char → Option (Script × List Char)
  | 0, _ => none
  | depth + 1, cs =>
      let start := dropGaps cs
      match redirectMark? start with
      | some ((descriptor, kind), rest) =>
          match target? total kind depth rest with
          | some (target, behind) =>
              simple? total line assignments words
                (redirects ++ [.mk descriptor kind target]) depth behind
          | none => none
      | none =>
          let assignment : Option ((String × Word) × List Char) :=
            if words.isEmpty then
              match assigned? start with
              | some (name, rest) =>
                  (parts? total .bare depth rest).map fun (word, behind) => ((name, word), behind)
              | none => none
            else none
          match assignment with
          | some (found, behind) =>
              simple? total line (assignments ++ [found]) words redirects depth behind
          | none =>
              match word? total depth start with
              | some (word, behind) =>
                  simple? total line assignments (words ++ [word]) redirects depth behind
              | none =>
                  if assignments.isEmpty && words.isEmpty && redirects.isEmpty then none
                  else some (.simple line assignments words redirects, cs)
termination_by structural depth _ => depth

/-- Reads the branches of a choice up to its end. -/
def branches? (total : Nat) : Nat → List Char → Option (List (List Word × Script) × List Char)
  | 0, _ => none
  | depth + 1, cs =>
      let start := dropLines cs.length cs
      match keyword? "esac" start with
      | some rest => some ([], rest)
      | none =>
          let patterns := match start with
            | '(' :: rest => alternatives? total depth rest
            | _ => alternatives? total depth start
          match patterns with
          | none => none
          | some (patterns, behind) =>
              match list? total depth behind with
              | none => none
              | some (body, behind) =>
                  match dropLines behind.length behind with
                  | ';' :: ';' :: rest =>
                      (branches? total depth rest).map fun (branches, behind) =>
                        ((patterns, body) :: branches, behind)
                  | rest =>
                      (keyword? "esac" rest).map fun behind => ([(patterns, body)], behind)
termination_by structural depth _ => depth

/-- Reads the patterns of a branch up to the closing parenthesis. -/
def alternatives? (total : Nat) : Nat → List Char → Option (List Word × List Char)
  | 0, _ => none
  | depth + 1, cs =>
      match word? total depth cs with
      | none => none
      | some (word, behind) =>
          match dropGaps behind with
          | '|' :: rest =>
              (alternatives? total depth rest).map fun (words, behind) => (word :: words, behind)
          | ')' :: rest => some ([word], rest)
          | _ => none
termination_by structural depth _ => depth

/-- Reads a conditional behind `if` or `elif`, up to `fi`. -/
def conditional? (total : Nat) :
    Nat → List Char → Option ((Script × Script × Script) × List Char)
  | 0, _ => none
  | depth + 1, cs => do
      let (test, behind) ← list? total depth cs
      let behind ← keyword? "then" (dropLines behind.length behind)
      let (thenBody, behind) ← list? total depth behind
      let behind := dropLines behind.length behind
      match keyword? "fi" behind with
      | some rest => some ((test, thenBody, .nothing), rest)
      | none =>
          match keyword? "elif" behind with
          | some rest =>
              (conditional? total depth rest).map fun ((t, a, b), behind) =>
                ((test, thenBody, .conditional t a b []), behind)
          | none => do
              let behind ← keyword? "else" behind
              let (elseBody, behind) ← list? total depth behind
              let rest ← keyword? "fi" (dropLines behind.length behind)
              return ((test, thenBody, elseBody), rest)
termination_by structural depth _ => depth

/-- Reads a loop's body between `do` and `done`. -/
def body? (total : Nat) : Nat → List Char → Option (Script × List Char)
  | 0, _ => none
  | depth + 1, cs => do
      let start := match dropGaps cs with
        | ';' :: rest => rest
        | rest => rest
      let start ← keyword? "do" (dropLines start.length start)
      let (body, behind) ← list? total depth start
      let rest ← keyword? "done" (dropLines behind.length behind)
      return (body, rest)
termination_by structural depth _ => depth

/-- Reads a command. -/
def command? (total : Nat) : Nat → List Char → Option (Script × List Char)
  | 0, _ => none
  | depth + 1, cs =>
      let start := dropGaps cs
      let closed (found : Option ((List Redirect → Script) × List Char)) :
          Option (Script × List Char) := do
        let (make, behind) ← found
        let (redirects, rest) ← redirects? total depth behind
        return (make redirects, rest)
      match keyword? "\x7b" start with
      | some rest => closed do
          let (body, behind) ← list? total depth rest
          let rest ← keyword? "\x7d" (dropLines behind.length behind)
          return (.group body, rest)
      | none =>
      match start with
      | '(' :: rest => closed do
          let (body, behind) ← list? total depth rest
          match dropLines behind.length behind with
          | ')' :: rest => return (.subshell body, rest)
          | _ => none
      | _ =>
      match keyword? "for" start with
      | some rest => closed do
          let (name, behind) ← name? (dropGaps rest)
          let behind := dropLines behind.length behind
          match keyword? "in" behind with
          | some rest => do
              let (items, behind) ← words? total depth rest
              let (body, rest) ← body? total depth behind
              return (.each name (some items) body, rest)
          | none => do
              let (body, rest) ← body? total depth behind
              return (.each name none body, rest)
      | none =>
      match keyword? "case" start with
      | some rest => closed do
          let (word, behind) ← word? total depth rest
          let behind ← keyword? "in" (dropLines behind.length behind)
          let (branches, rest) ← branches? total depth behind
          return (.choice word branches, rest)
      | none =>
      match keyword? "if" start with
      | some rest => closed do
          let ((test, thenBody, elseBody), rest) ← conditional? total depth rest
          return (.conditional test thenBody elseBody, rest)
      | none =>
      match keyword? "while" start with
      | some rest => closed do
          let (test, behind) ← list? total depth rest
          let (body, rest) ← body? total depth behind
          return (.loop false test body, rest)
      | none =>
      match keyword? "until" start with
      | some rest => closed do
          let (test, behind) ← list? total depth rest
          let (body, rest) ← body? total depth behind
          return (.loop true test body, rest)
      | none =>
      match name? start with
      | some (name, '(' :: ')' :: rest) => do
          let (body, rest) ← command? total depth (dropLines rest.length rest)
          return (.function name body, rest)
      | _ =>
          if atEndOfList start then none
          else simple? total (lineOf total start) [] [] [] depth start
termination_by structural depth _ => depth

/-- Reads a pipeline. -/
def pipeline? (total : Nat) : Nat → List Char → Option (Script × List Char)
  | 0, _ => none
  | depth + 1, cs =>
      match keyword? "!" cs with
      | some rest => (pipeline? total depth rest).map fun (s, behind) => (.negated s, behind)
      | none =>
          match command? total depth cs with
          | none => none
          | some (first, behind) =>
              match dropGaps behind with
              | '|' :: '|' :: rest => some (first, '|' :: '|' :: rest)
              | '|' :: rest =>
                  (pipeline? total depth (dropLines rest.length rest)).map fun (s, behind) =>
                    (.pipe first s, behind)
              | rest => some (first, rest)
termination_by structural depth _ => depth

/-- Reads what follows a pipeline that `&&` or `||` may join to others. -/
def joined? (total : Nat) (first : Script) : Nat → List Char → Option (Script × List Char)
  | 0, _ => none
  | depth + 1, cs =>
      match dropGaps cs with
      | '&' :: '&' :: rest => do
          let (next, behind) ← pipeline? total depth (dropLines rest.length rest)
          joined? total (.both first next) depth behind
      | '|' :: '|' :: rest => do
          let (next, behind) ← pipeline? total depth (dropLines rest.length rest)
          joined? total (.either first next) depth behind
      | rest => some (first, rest)
termination_by structural depth _ => depth

/-- Reads commands up to the end of the text or of the construct they stand in. -/
def list? (total : Nat) : Nat → List Char → Option (Script × List Char)
  | 0, _ => none
  | depth + 1, cs =>
      let start := dropLines cs.length cs
      match start with
      | [] => some (.nothing, [])
      | ')' :: _ => some (.nothing, start)
      | ';' :: ';' :: _ => some (.nothing, start)
      | _ =>
          if atEndOfList start then some (.nothing, start)
          else do
            let (first, behind) ← pipeline? total depth start
            let (first, behind) ← joined? total first depth behind
            match dropGaps behind with
            | ';' :: ';' :: rest => some (first, ';' :: ';' :: rest)
            | ';' :: rest => do
                let (next, behind) ← list? total depth rest
                return (.sequence first next, behind)
            | '&' :: rest => do
                let (next, behind) ← list? total depth rest
                return (.sequence first next, behind)
            | '\n' :: rest => do
                let (next, behind) ← list? total depth rest
                return (.sequence first next, behind)
            | rest => some (first, rest)
termination_by structural depth _ => depth

end

/-- Reads a script. -/
def Script.parse (text : String) : Option Script :=
  let cs := text.toList
  match list? (cs.count '\n') (8 * cs.length + 64) cs with
  | some (script, []) => some script
  | _ => none

end Drydock.Shell
