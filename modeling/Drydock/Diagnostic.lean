/-!
# Diagnostics

A `Diagnostic` is a message for the person at the terminal, with a location, notes and suggestions.
`Diagnostic.render` lays it out, with colours where the terminal shows them.
-/

namespace Drydock

/-- A message with what belongs to it. -/
structure Diagnostic where
  message : String
  location : Option String := none
  /-- Notes under the message. -/
  context : List String := []
  /-- What could be done about it, in order. -/
  suggestions : List String := []
  deriving DecidableEq, Inhabited, Repr

namespace Diagnostic

/-- A word in bold and in the given terminal colour. -/
def paint (color : Bool) (code : String) (word : String) : String :=
  if color then "\x1b[1;" ++ code ++ "m" ++ word ++ "\x1b[0m" else word

/-- The suggestions with their numbers, counted from one. -/
def numbered (suggestions : List String) : List String :=
  suggestions.zipIdx.map fun (text, i) => "  " ++ toString (i + 1) ++ ". " ++ text ++ "\n"

/-- The layout of a diagnostic: message, location and notes on lines of their own, then the numbered
suggestions behind an empty line. -/
def render (d : Diagnostic) (color : Bool) : String :=
  let head := paint color "31" "error" ++ ": " ++ d.message ++ "\n"
  let location := (d.location.map fun place => "  --> " ++ place ++ "\n").getD ""
  let notes := d.context.map fun note => "  = " ++ note ++ "\n"
  let help :=
    if d.suggestions = [] then []
    else ("\n" ++ paint color "32" "help" ++ ": consider:\n") :: numbered d.suggestions
  head ++ location ++ String.join notes ++ String.join help

end Diagnostic

end Drydock
