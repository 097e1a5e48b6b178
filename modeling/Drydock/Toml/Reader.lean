import Drydock.Toml.Quoted
import Drydock.Toml.Scalar

/-!
# Reading lines and values

Every reader takes the text that is left and returns what it read with the text behind it.  Values
nest in arrays and inline tables up to `depthLimit` levels; a key has fewer parts than that.

A document is read into `Statement`s, one for every line that says something.
-/

namespace Drydock.Toml

/-- Drops spaces and tabs. -/
def dropSpaces (cs : List Char) : List Char := cs.dropWhile isSpace

/-- The first level of nesting that is refused. -/
def depthLimit : Nat := 80

/-! ## Keys -/

/-- Characters of a key without quotes. -/
def isKeyChar (c : Char) : Bool := c.isAlphanum || c = '_' || c = '-'

/-- Reads one part of a key. -/
def keyPart? (cs : List Char) : Option (String × List Char) :=
  match cs with
  | '"' :: rest => (oneLine? .escaped [] rest).map fun (s, behind) => (.ofList s, behind)
  | '\'' :: rest => (oneLine? .literal [] rest).map fun (s, behind) => (.ofList s, behind)
  | _ =>
      let bare := cs.takeWhile isKeyChar
      if bare = [] then none else some (.ofList bare, cs.drop bare.length)

/-- Reads a key: its parts, with dots and perhaps spaces between them. -/
def keyParts? (cs : List Char) : Option (List String × List Char) :=
  match keyPart? (dropSpaces cs) with
  | none => none
  | some (part, behind) =>
      match dropSpaces behind with
      | '.' :: rest =>
          if rest.length < cs.length then
            (keyParts? rest).map fun (parts, behind) => (part :: parts, behind)
          else none
      | rest => some ([part], rest)
termination_by cs.length

/-- Reads a key that has not too many parts: those in front of the last one, and the last one. -/
def key? (cs : List Char) : Option ((List String × String) × List Char) := do
  let (parts, behind) ← keyParts? cs
  let last ← parts.getLast?
  if parts.length < depthLimit then some ((parts.dropLast, last), behind) else none

/-! ## Blanks and comments -/

/-- Reads a comment behind its mark up to the end of the line. -/
def comment (cs : List Char) : List Char := cs.dropWhile isPrintable

/-- Drops blanks, line ends and comments between the items of an array. -/
def dropFiller (cs : List Char) : List Char :=
  match cs with
  | [] => []
  | '#' :: rest =>
      match lineEnd? (comment rest) with
      | some behind => if behind.length ≤ rest.length then dropFiller behind else cs
      | none => cs
  | _ :: rest =>
      if (dropBlankLines cs).length ≤ rest.length then dropFiller (dropBlankLines cs) else cs
termination_by cs.length

/-- What may follow a statement on its line: spaces and a comment. -/
def endOfLine? (cs : List Char) : Option (List Char) :=
  let rest :=
    match dropSpaces cs with
    | '#' :: text => comment text
    | rest => rest
  if rest = [] then some [] else lineEnd? rest

/-! ## Values -/

/-- Reads values with commas between them, up to the closing bracket; a comma may follow the last
one. -/
def items? (value? : List Char → Option (Value × List Char)) (found : List Value)
    (cs : List Char) : Option (Value × List Char) :=
  match dropFiller cs with
  | ']' :: rest => some (.array found.reverse, rest)
  | start =>
      match value? start with
      | none => none
      | some (value, behind) =>
          match dropFiller behind with
          | ']' :: rest => some (.array (value :: found).reverse, rest)
          | ',' :: rest =>
              if rest.length < cs.length then items? value? (value :: found) rest else none
          | _ => none
termination_by cs.length

/-- Reads the pairs of an inline table up to the closing brace. -/
def pairs? (value? : List Char → Option (Value × List Char)) (found : Entries)
    (cs : List Char) : Option (Value × List Char) :=
  match key? cs with
  | some ((path, key), '=' :: start) =>
      match value? (dropSpaces start) with
      | none => none
      | some (value, behind) =>
          match found.define .inline path key value with
          | none => none
          | some entries =>
              match dropSpaces behind with
              | '\x7d' :: rest => some (.table .inline entries, rest)
              | ',' :: rest =>
                  if rest.length < cs.length then pairs? value? entries rest else none
              | _ => none
  | _ => none
termination_by cs.length

/-- Reads a scalar.  A date and a time may be written with a space between them. -/
def scalarAt? (cs : List Char) : Option (Value × List Char) :=
  let word := cs.takeWhile isScalarChar
  let behind := cs.drop word.length
  match behind with
  | ' ' :: rest =>
      let next := rest.takeWhile isScalarChar
      if isDate word ∧ isZonedTime next then
        some (.moment (.ofList (word ++ ' ' :: next)), rest.drop next.length)
      else (scalar? word).map (·, behind)
  | _ => (scalar? word).map (·, behind)

/-- Reads a value in which arrays and inline tables nest at most `depth` levels. -/
def value? (depth : Nat) (cs : List Char) : Option (Value × List Char) :=
  match cs with
  | '"' :: _ => (quoted? cs).map fun (s, behind) => (.text (.ofList s), behind)
  | '\'' :: _ => (quoted? cs).map fun (s, behind) => (.text (.ofList s), behind)
  | '[' :: rest =>
      match depth with
      | 0 => none
      | depth + 1 => items? (value? depth) [] rest
  | '\x7b' :: rest =>
      match depth with
      | 0 => none
      | depth + 1 =>
          match dropSpaces rest with
          | '\x7d' :: behind => some (.table .inline [], behind)
          | start => pairs? (value? depth) [] start
  | _ => scalarAt? cs

/-! ## Statements -/

/-- What a line of a document says. -/
inductive Statement where
  /-- The value of a key, given by the parts in front of the last one and the last one. -/
  | assign (path : List String) (key : String) (value : Value)
  /-- The header of a table. -/
  | header (path : List String) (key : String)
  /-- The header of a further table of an array. -/
  | element (path : List String) (key : String)
  deriving Repr

/-- Reads a statement with the end of its line. -/
def statement? (cs : List Char) : Option (Statement × List Char) :=
  match cs with
  | '[' :: '[' :: rest =>
      match key? rest with
      | some ((path, key), ']' :: ']' :: behind) =>
          (endOfLine? behind).map (.element path key, ·)
      | _ => none
  | '[' :: rest =>
      match key? rest with
      | some ((path, key), ']' :: behind) => (endOfLine? behind).map (.header path key, ·)
      | _ => none
  | _ =>
      match key? cs with
      | some ((path, key), '=' :: rest) =>
          match value? (depthLimit - 1) (dropSpaces rest) with
          | some (value, behind) => (endOfLine? behind).map (.assign path key value, ·)
          | none => none
      | _ => none

/-- Reads all statements of a document. -/
def statements? (found : List Statement) (cs : List Char) : Option (List Statement) :=
  match dropSpaces cs with
  | [] => some found.reverse
  | '#' :: text =>
      let rest := comment text
      if rest = [] then some found.reverse
      else
        match lineEnd? rest with
        | some behind => if behind.length < cs.length then statements? found behind else none
        | none => none
  | start =>
      match lineEnd? start with
      | some behind => if behind.length < cs.length then statements? found behind else none
      | none =>
          match statement? start with
          | some (statement, behind) =>
              if behind.length < cs.length then statements? (statement :: found) behind else none
          | none => none
termination_by cs.length

end Drydock.Toml
