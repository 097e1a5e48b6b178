import Drydock.CompilerFlags
import Drydock.Table

/-!
# Configuration headers

A `ConfigHeader` records the compiler settings of a library as `#define` lines with C strings.  The
header that stands in for a missing one is `ConfigHeader.minimal`.

`definesOf` reads a header back: it collects the lines that define a name as a word.
-/

namespace Drydock

/-- A header of definitions, each name behind a common prefix. -/
structure ConfigHeader where
  keyPrefix : String
  entries : List (String × String)
  deriving DecidableEq, Repr

namespace ConfigHeader

/-- The value of a variable that has no meaning for the module. -/
def unused : String := "(unused)"

/-- The header of a compiler configuration, with unused placeholders behind its variables. -/
def ofFlags (keyPrefix : String) (flags : CompilerFlags) (placeholders : List String) :
    ConfigHeader where
  keyPrefix
  entries := flags.assignments ++ placeholders.map (·, unused)

/-- The inside of a C string: backslashes and double quotes are escaped. -/
def escape : List Char → List Char
  | [] => []
  | c :: rest => if c = '\\' ∨ c = '"' then '\\' :: c :: escape rest else c :: escape rest

/-- The line of one definition. -/
def line (keyPrefix : String) (entry : String × String) : String :=
  "#define " ++ keyPrefix ++ "_" ++ entry.1 ++ " \"" ++ .ofList (escape entry.2.toList) ++ "\"\n"

/-- The text of a header. -/
def render (h : ConfigHeader) : String := String.join (h.entries.map (line h.keyPrefix))

/-- The header of a library that could not be configured. -/
def minimal : String :=
  "/* empty config.h created by slipway */\n/* conservative compilation options */\n"

end ConfigHeader

/-- The name and the value of a line `#define NAME VALUE`, where one space stands before the name
and blanks before the value.  What follows the value does not count. -/
def defineOf? (line : List Char) : Option (List Char × List Char) :=
  (Text.dropStart? "#define ".toList line).bind fun rest =>
    let name := rest.takeWhile fun c => !Text.isBlank c
    let behind := rest.dropWhile fun c => !Text.isBlank c
    let value := (behind.dropWhile Text.isBlank).takeWhile fun c => !Text.isBlank c
    if name = [] ∨ value = [] then none else some (name, value)

/-- The definitions of a header; of several for one name the last one counts. -/
def definesOf (text : String) : Table String :=
  .ofList <| (Text.lineChars text.toList).filterMap fun line =>
    (defineOf? line).map fun (name, value) => (.ofList name, .ofList value)

end Drydock
