import Drydock.Text.Blank

/-!
# Quoted strings

Strings stand in double quotes, with escapes, or in single quotes, where every character means
itself; three quotes make either kind go over several lines.  The readers here take the text behind
the opening quotes and return the string with what follows the closing ones.
-/

namespace Drydock.Toml

/-- Characters that may stand in a string or a comment: all but the controls, tab excepted. -/
def isPrintable (c : Char) : Bool := c = '\t' || (0x20 ≤ c.toNat && c.toNat ≠ 0x7f)

/-- The value of a hexadecimal digit. -/
def hexValue? (c : Char) : Option Nat :=
  if c.isDigit then some (c.toNat - '0'.toNat)
  else if 'a' ≤ c ∧ c ≤ 'f' then some (c.toNat - 'a'.toNat + 10)
  else if 'A' ≤ c ∧ c ≤ 'F' then some (c.toNat - 'A'.toNat + 10)
  else none

/-- The character of a code point in hexadecimal digits. -/
def scalarOf? (digits : List Char) : Option Char := do
  let values ← digits.mapM hexValue?
  let code := values.foldl (fun n d => 16 * n + d) 0
  if h : code.isValidChar then some (Char.ofNatAux code h) else none

/-- The character of an escape without digits. -/
def shortEscape? : Char → Option Char
  | 'b' => some '\x08'
  | 't' => some '\t'
  | 'n' => some '\n'
  | 'f' => some '\x0c'
  | 'r' => some '\r'
  | '"' => some '"'
  | '\\' => some '\\'
  | _ => none

/-- Reads an escape behind its backslash. -/
def escape? : List Char → Option (Char × List Char)
  | 'u' :: a :: b :: c :: d :: rest => (scalarOf? [a, b, c, d]).map (·, rest)
  | 'U' :: a :: b :: c :: d :: e :: f :: g :: h :: rest =>
      (scalarOf? [a, b, c, d, e, f, g, h]).map (·, rest)
  | c :: rest => (shortEscape? c).map (·, rest)
  | [] => none

/-- Whether a quoted string knows escapes. -/
inductive Quoting where
  | escaped
  | literal
  deriving DecidableEq, Repr

/-- The quote of a kind of string. -/
def Quoting.mark : Quoting → Char
  | escaped => '"'
  | literal => '\''

/-- Reads a string on one line up to its closing quote.  `body` holds what was read, backwards. -/
def oneLine? (q : Quoting) (body : List Char) (cs : List Char) :
    Option (List Char × List Char) :=
  match cs with
  | [] => none
  | c :: rest =>
      if c = q.mark then some (body.reverse, rest)
      else if c = '\\' ∧ q = .escaped then
        match escape? rest with
        | some (e, behind) =>
            if behind.length ≤ rest.length then oneLine? q (e :: body) behind else none
        | none => none
      else if isPrintable c then oneLine? q (c :: body) rest
      else none
termination_by cs.length

/-- A line end: a line feed, with or without a carriage return in front. -/
def lineEnd? : List Char → Option (List Char)
  | '\n' :: rest => some rest
  | '\r' :: '\n' :: rest => some rest
  | _ => none

/-- A space or a tab. -/
def isSpace (c : Char) : Bool := c = ' ' || c = '\t'

/-- Drops spaces, tabs and line ends. -/
def dropBlankLines (cs : List Char) : List Char :=
  match cs with
  | [] => []
  | c :: rest =>
      if isSpace c ∨ c = '\n' then dropBlankLines rest
      else
        match lineEnd? cs with
        | some behind => if behind.length ≤ rest.length then dropBlankLines behind else cs
        | none => cs
termination_by cs.length

/-- What follows a backslash at the end of a line: the blanks up to the next word do not count. -/
def continuation? (cs : List Char) : Option (List Char) :=
  (lineEnd? (cs.dropWhile isSpace)).map dropBlankLines

/-- Reads a string over several lines up to its three closing quotes; one or two quotes directly in
front of them belong to the string. -/
def manyLines? (q : Quoting) (body : List Char) (cs : List Char) :
    Option (List Char × List Char) :=
  match cs with
  | [] => none
  | c :: rest =>
      if c = q.mark then
        let run := cs.takeWhile (· = q.mark)
        let behind := rest.drop (run.length - 1)
        if run.length < 3 then
          if behind.length ≤ rest.length then manyLines? q (run ++ body) behind else none
        else if run.length ≤ 5 then some ((run.drop 3 ++ body).reverse, behind)
        else none
      else
        match lineEnd? cs with
        | some behind =>
            if behind.length ≤ rest.length then manyLines? q ('\n' :: body) behind else none
        | none =>
            if c = '\\' ∧ q = .escaped then
              match continuation? rest with
              | some behind =>
                  if behind.length ≤ rest.length then manyLines? q body behind else none
              | none =>
                  match escape? rest with
                  | some (e, behind) =>
                      if behind.length ≤ rest.length then manyLines? q (e :: body) behind else none
                  | none => none
            else if isPrintable c then manyLines? q (c :: body) rest
            else none
termination_by cs.length

/-- Drops the line end directly behind the opening quotes. -/
def withoutFirstLineEnd (cs : List Char) : List Char := (lineEnd? cs).getD cs

/-- Reads a string of either kind, on one line or on several. -/
def quoted? : List Char → Option (List Char × List Char)
  | '"' :: '"' :: '"' :: rest => manyLines? .escaped [] (withoutFirstLineEnd rest)
  | '\'' :: '\'' :: '\'' :: rest => manyLines? .literal [] (withoutFirstLineEnd rest)
  | '"' :: rest => oneLine? .escaped [] rest
  | '\'' :: rest => oneLine? .literal [] rest
  | _ => none

end Drydock.Toml
