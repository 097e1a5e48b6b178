import Drydock.Path
import Drydock.Text.Blank

/-!
# Modules

A `Module` is one compiled unit of a package: the sources, flags and libraries of one shared object,
with every path resolved against the package.

* `Define` — a preprocessor definition and its `-D` option.
* `PrebuildStep`, `InitStep` — work before a module is compiled, and adjustments before it is
  planned.
* `Module.outputFile`, `Module.linkName` — the file a module is built to and the name that other
  modules link it by.
-/

namespace Drydock

/-- A preprocessor definition, with or without a value. -/
structure Define where
  name : String
  value : Option String
  deriving DecidableEq, Inhabited, Repr

namespace Define

/-- Reads `NAME` or `NAME=VALUE`; blanks around the name are dropped, the value is kept as it is. -/
def ofText (s : String) : Define :=
  match Text.splitOnce '=' s with
  | some (name, value) => ⟨Text.trim name, some value⟩
  | none => ⟨Text.trim s, none⟩

/-- The compiler option that makes the definition. -/
def flag (d : Define) : String :=
  match d.value with
  | some value => "-D" ++ d.name ++ "=" ++ value
  | none => "-D" ++ d.name

end Define

/-- Work done before a module is compiled. -/
inductive PrebuildStep where
  /-- Write the header that the vendored sources include, then build the vendored library. -/
  | buildVendoredLibrary (header : Path)
  /-- Write a header for a library that is compiled into the module. -/
  | configHeader (path : Path) (keyPrefix : String) (placeholders : List String)
  deriving DecidableEq, Repr

namespace PrebuildStep

/-- Changes the path of the header a step writes. -/
def mapPath (f : Path → Path) : PrebuildStep → PrebuildStep
  | buildVendoredLibrary header => buildVendoredLibrary (f header)
  | configHeader path keyPrefix placeholders => configHeader (f path) keyPrefix placeholders

end PrebuildStep

/-- An adjustment made to a module before it is planned. -/
inductive InitStep where
  /-- Append the include and library directories of the vendored library. -/
  | injectVendoredPaths
  deriving DecidableEq, Repr

/-- One compiled unit of a package. -/
structure Module where
  name : String
  /-- Source files in compile order. -/
  sources : List Path := []
  /-- Objects and archives that are linked in as they are. -/
  extraObjects : List Path := []
  /-- Libraries linked by name. -/
  libraries : List String := []
  /-- Names of modules that are built first and linked against. -/
  dependsOn : List String := []
  includeDirs : List Path := []
  libraryDirs : List Path := []
  defines : List Define := []
  undefines : List String := []
  compileArgs : List String := []
  linkArgs : List String := []
  /-- Whether the module carries the vendored library. -/
  foundational : Bool := false
  prebuild : Option PrebuildStep := none
  init : Option InitStep := none
  deriving DecidableEq, Inhabited, Repr

namespace Module

/-- The file name of the built shared object. -/
def outputFile (m : Module) (suffix : String) : String := m.name ++ suffix

/-- A file name without its last extension; a name whose only dot stands first is kept. -/
def withoutExtension (file : List Char) : List Char := Path.fileStem file

/-- A name without a leading `lib`. -/
def withoutLib (name : List Char) : List Char :=
  (Text.dropStart? ['l', 'i', 'b'] name).getD name

/-- The name that other modules link the module by: its file name without the last extension and
without a leading `lib`. -/
def linkName (m : Module) (suffix : String) : String :=
  .ofList (withoutLib (withoutExtension (m.outputFile suffix).toList))

end Module

end Drydock
