import Drydock.Error
import Drydock.Table
import Drydock.Text.Blank

/-!
# Variables reported by the vendored build

`make -s print-config` prints `KEY = value` lines.  `MakeVariables.parse` reads them,
`MakeVariables.render` writes the record from which later runs read them again.
-/

namespace Drydock

/-- The variables of the vendored build by name. -/
abbrev MakeVariables := Table String

namespace MakeVariables

/-- The key and the value of a line; both lose the blanks around them, and a line without `=` or
with a key that is empty or holds a blank says nothing. -/
def entryOf? (line : List Char) : Option (String × String) :=
  (Text.splitOnceChars '=' line).bind fun (key, value) =>
    let key := Text.trimChars key
    if key = [] ∨ key.any Text.isBlank then none
    else some (.ofList key, .ofList (Text.trimChars value))

/-- Reads the lines of a report; the last line of a key counts. -/
def parse (report : String) : MakeVariables :=
  .ofList ((Text.lineChars report.toList).filterMap entryOf?)

/-- The line of a variable. -/
def line (entry : String × String) : String := entry.1 ++ " = " ++ entry.2 ++ "\n"

/-- The record of the variables, by rising name. -/
def render (v : MakeVariables) : String := String.join (v.entries.map line)

/-- A library without the `-l` in front of it. -/
def libraryName (word : String) : String :=
  .ofList ((Text.dropStart? ['-', 'l'] word.toList).getD word.toList)

/-- The libraries listed in `LIBS`. -/
def libraries (v : MakeVariables) : List String :=
  (((v.get? "LIBS").map Text.words).getD []).map libraryName

/-- The objects listed in a variable, below the directory of the library. -/
def objects (v : MakeVariables) (name : String) (dir : Path) : Except SetupError (List Path) :=
  match v.get? name with
  | some value => .ok ((Text.words value).map fun file => dir.join ⟨file⟩)
  | none => .error (.missingMakeVariable name)

end MakeVariables

end Drydock
