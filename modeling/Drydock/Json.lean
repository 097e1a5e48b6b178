/-!
# JSON

The values in which plans and flags are printed.  `Json.render` writes a value over several lines,
indented by two spaces, with the fields of an object in their order.
-/

namespace Drydock

/-- A value without numbers. -/
inductive Json where
  | null
  | boolean (b : Bool)
  | text (s : String)
  | list (items : List Json)
  | object (fields : List (String × Json))
  deriving Inhabited, Repr

namespace Json

/-- A list of texts. -/
def texts (items : List String) : Json := .list (items.map .text)

/-- A text that may be absent. -/
def optionalText (s : Option String) : Json := (s.map Json.text).getD .null

/-- A hexadecimal digit. -/
def hexDigit (n : Nat) : Char := if n < 10 then Char.ofNat (48 + n) else Char.ofNat (87 + n)

/-- A character inside a quoted text. -/
def escapeChar (c : Char) : List Char :=
  if c = '"' then ['\\', '"']
  else if c = '\\' then ['\\', '\\']
  else if c = '\n' then ['\\', 'n']
  else if c = '\r' then ['\\', 'r']
  else if c = '\t' then ['\\', 't']
  else if c = '\x08' then ['\\', 'b']
  else if c = '\x0c' then ['\\', 'f']
  else if c.toNat < 0x20 then
    ['\\', 'u', '0', '0', hexDigit (c.toNat / 16), hexDigit (c.toNat % 16)]
  else [c]

/-- A quoted text. -/
def quote (s : String) : String := "\"" ++ .ofList (s.toList.flatMap escapeChar) ++ "\""

/-- Parts between brackets, each on a line of its own; no parts leave the brackets empty. -/
def block (opening closing : String) (indent : String) (parts : List String) : String :=
  if parts = [] then opening ++ closing
  else
    opening ++ "\n" ++ ",\n".intercalate (parts.map fun part => indent ++ "  " ++ part) ++ "\n" ++
      indent ++ closing

mutual

/-- The text of a value whose lines are indented. -/
def renderAt (indent : String) : Json → String
  | null => "null"
  | boolean b => if b then "true" else "false"
  | text s => quote s
  | list items => block "[" "]" indent (renderItems (indent ++ "  ") items)
  | object fields => block "\x7b" "\x7d" indent (renderFields (indent ++ "  ") fields)

/-- The texts of the items of a list. -/
def renderItems (indent : String) : List Json → List String
  | [] => []
  | item :: rest => renderAt indent item :: renderItems indent rest

/-- The texts of the fields of an object. -/
def renderFields (indent : String) : List (String × Json) → List String
  | [] => []
  | (name, value) :: rest =>
      (quote name ++ ": " ++ renderAt indent value) :: renderFields indent rest

end

/-- The text of a value. -/
def render (j : Json) : String := j.renderAt ""

end Json

end Drydock
