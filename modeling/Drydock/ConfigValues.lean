import Drydock.Table
import Drydock.Text.UpperCase

/-!
# The record of optional features

The config-values file tells the package which copy of the vendored library it was built with and,
for a bundled one, the value of every requested feature macro.
-/

namespace Drydock

/-- Where the vendored library of a build comes from. -/
inductive LibrarySource where
  /-- Built from the bundled sources. -/
  | builtin
  /-- Installed outside the package. -/
  | external
  deriving DecidableEq, Repr

/-- The word for a source. -/
def LibrarySource.word : LibrarySource → String
  | builtin => "builtin"
  | external => "external"

/-- The source of the library and the values of its features. -/
structure ConfigValues where
  key : String
  source : LibrarySource
  features : List (String × String)
  deriving DecidableEq, Repr

namespace ConfigValues

/-- The record of a library: the features of a bundled copy have the value that its header defines,
or `0`; an external copy has none. -/
def ofDefines (library : String) (source : LibrarySource) (features : List String)
    (defines : Table String) : ConfigValues where
  key := Text.upper library
  source
  features :=
    match source with
    | .builtin => features.map fun name => (name, (defines.get? name).getD "0")
    | .external => []

/-- The text of the record. -/
def render (v : ConfigValues) : String :=
  v.key ++ " = \"" ++ v.source.word ++ "\"\n" ++
    String.join (v.features.map fun (name, value) => name ++ " = " ++ value ++ "\n")

end ConfigValues

end Drydock
