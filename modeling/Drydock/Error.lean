import Drydock.Diagnostic
import Drydock.Path

/-!
# What can go wrong

Errors are causes, and their wording is a function of the cause.

* `SetupError` — the settings, the manifest or the vendored tree do not fit together.
* `GraphError` — the declared modules cannot be put into a build order.
* `SymbolConflict` — a symbol that several modules define.
* `IoError` — the operating system refused an operation.
* `ManifestError`, `PatternError` — a text that is not in its format.
* `Failure` — one of these causes, or a tool that failed, under the activities that led to it.
-/

namespace Drydock

/-- Settings, manifest and vendored tree that do not fit together. -/
inductive SetupError where
  /-- The requested link mode is no mode. -/
  | unknownLinkMode (word : String)
  /-- External linking with one of its two directories, or none. -/
  | missingExternalDirs (libraryDir includeDir : Option Path)
  | missingConfigureScript (script : Path)
  | noSources (moduleName : String) (patterns : List String)
  /-- The vendored build does not report a variable that the manifest names. -/
  | missingMakeVariable (name : String)
  | unknownModule (name : String)
  deriving DecidableEq, Repr

namespace SetupError

/-- The wording of an error. -/
def message : SetupError → String
  | unknownLinkMode word =>
      "unknown link mode `" ++ word ++ "` (expected shared, separate or external)"
  | missingExternalDirs _ _ =>
      "external linking requires both a library directory and an include directory"
  | missingConfigureScript script => "configure script " ++ script.text ++ " does not exist"
  | noSources moduleName _ => "module `" ++ moduleName ++ "` has no source files"
  | missingMakeVariable name => "vendored build did not report `" ++ name ++ "` in print-config"
  | unknownModule name => "no module named `" ++ name ++ "` in the manifest"

/-- A directory as it is shown in a note. -/
def shownDir (dir : Option Path) : String := (dir.map Path.text).getD "(not set)"

/-- The message with notes and suggestions. -/
def diagnostic (e : SetupError) : Diagnostic :=
  let base : Diagnostic := { message := e.message }
  match e with
  | unknownLinkMode _ =>
      { base with
        suggestions := ["Set SLIPWAY_LINK_MODE (or --mode) to shared, separate or external"] }
  | missingExternalDirs libraryDir includeDir =>
      { base with
        context :=
          ["library directory: " ++ shownDir libraryDir,
            "include directory: " ++ shownDir includeDir]
        suggestions := ["Set both SLIPWAY_LIBRARY_DIR and SLIPWAY_INCLUDE_DIR"] }
  | missingConfigureScript script =>
      { base with
        location := some script.text
        suggestions := ["Restore the vendored source tree or link an external copy"] }
  | noSources _ patterns =>
      { base with context := ["patterns: " ++ ", ".intercalate patterns] }
  | missingMakeVariable _ =>
      { base with suggestions := ["Check the `objects-variable` setting in [vendored]"] }
  | unknownModule _ =>
      { base with suggestions := ["Run `slipway plan` to list the declared modules"] }

end SetupError

/-- Declared modules that cannot be put into a build order. -/
inductive GraphError where
  | duplicateModule (name : String)
  | unknownDependency (moduleName dependency : String)
  | severalFoundational (names : List String)
  /-- A name without `lib` in front, or nothing behind it. -/
  | unlinkableName (name : String)
  /-- The modules of a closed dependency chain; the first one is repeated at the end. -/
  | cycle (names : List String)
  deriving DecidableEq, Repr

namespace GraphError

/-- The wording of an error. -/
def message : GraphError → String
  | duplicateModule name => "module `" ++ name ++ "` is declared more than once"
  | unknownDependency moduleName dependency =>
      "module `" ++ moduleName ++ "` depends on unknown module `" ++ dependency ++ "`"
  | severalFoundational names => "more than one foundational module: " ++ ", ".intercalate names
  | unlinkableName name =>
      "module name `" ++ name ++ "` must start with `lib` so it can be linked by name"
  | cycle _ => "cycle detected in module graph"

/-- The message with notes and suggestions. -/
def diagnostic (e : GraphError) : Diagnostic :=
  let base : Diagnostic := { message := e.message }
  match e with
  | cycle names =>
      { base with
        context := ["cycle: " ++ " -> ".intercalate names]
        suggestions := ["Break the cycle by removing one of the `depends-on` entries"] }
  | unknownDependency _ dependency =>
      { base with
        suggestions :=
          ["Declare a [[module]] named `" ++ dependency ++ "` or fix the `depends-on` entry"] }
  | _ => base

end GraphError

/-- A symbol that several modules define, with its owners in build order. -/
structure SymbolConflict where
  symbol : String
  modules : List String
  deriving DecidableEq, Repr

/-- The line that reports a conflict. -/
def SymbolConflict.text (c : SymbolConflict) : String :=
  "conflicting symbol (" ++ " ".intercalate c.modules ++ "): " ++ c.symbol

/-- Reasons of the operating system to refuse an operation. -/
inductive IoError where
  | notFound
  | permissionDenied
  | exists
  | notADirectory
  | isADirectory
  | nameTooLong
  /-- A file that is marked executable but is no program. -/
  | notAProgram
  /-- A file that is read as text but is not UTF-8. -/
  | notText
  /-- A path with a NUL character. -/
  | nulInPath
  /-- A program, argument or variable with a NUL character. -/
  | nulInArgument
  deriving DecidableEq, Repr, Inhabited

namespace IoError

/-- The wording of the operating system. -/
def message : IoError → String
  | notFound => "No such file or directory (os error 2)"
  | permissionDenied => "Permission denied (os error 13)"
  | .exists => "File exists (os error 17)"
  | notADirectory => "Not a directory (os error 20)"
  | isADirectory => "Is a directory (os error 21)"
  | nameTooLong => "File name too long (os error 36)"
  | notAProgram => "Exec format error (os error 8)"
  | notText => "stream did not contain valid UTF-8"
  | nulInPath => "file name contained an unexpected NUL byte"
  | nulInArgument => "nul byte found in provided data"

end IoError

/-- A manifest that cannot be read. -/
inductive ManifestError where
  /-- The text is not in the format, or a value has the wrong type. -/
  | malformed
  | missingField (name : String)
  | unknownVariant (found : String) (expected : List String)
  deriving DecidableEq, Repr, Inhabited

namespace ManifestError

/-- The wording of an error. -/
def message : ManifestError → String
  | malformed => "TOML parse error"
  | missingField name => "missing field `" ++ name ++ "`"
  | unknownVariant found expected =>
      "unknown variant `" ++ found ++ "`, expected " ++
        " or ".intercalate (expected.map fun word => "`" ++ word ++ "`")

end ManifestError

/-- A file pattern that is not in its format, with the position of the fault in characters. -/
structure PatternError where
  position : Nat
  fault : String
  deriving DecidableEq, Repr

/-- The wording of an error. -/
def PatternError.message (e : PatternError) : String :=
  "Pattern syntax error near position " ++ toString e.position ++ ": " ++ e.fault

/-- How a program that was started ended without success: by an exit code, or killed. -/
def shownExit (code : Option Nat) : String :=
  match code with
  | some n => "Some(" ++ toString n ++ ")"
  | none => "None"

/-- The innermost reason of a failure. -/
inductive Cause where
  | setup (e : SetupError)
  | graph (e : GraphError)
  | conflicts (symbols : List SymbolConflict)
  | io (e : IoError)
  | manifest (e : ManifestError)
  | pattern (e : PatternError)
  /-- A tool ended without success; `stderr` is absent where the tool wrote to the terminal. -/
  | toolFailed (command : String) (code : Option Nat) (stderr : Option String)
  | compilationFailed (source : Path) (stderr : String)
  | linkingFailed (output : Path) (stderr : String)
  /-- A module builds the vendored library of a package that declares none. -/
  | nothingVendored (moduleName : String)
  /-- No manifest in a directory or above it. -/
  | manifestNotFound (directory : Path)
  deriving DecidableEq, Repr

/-- The file that describes a package. -/
def manifestName : String := "Slipway.toml"

namespace Cause

/-- The wording of a cause. -/
def message : Cause → String
  | setup e => e.message
  | graph e => e.message
  | conflicts symbols =>
      "symbols defined in multiple modules (" ++ toString symbols.length ++ " conflicts)"
  | io e => e.message
  | manifest e => e.message
  | pattern e => e.message
  | toolFailed command code none => "`" ++ command ++ "` failed with exit code " ++ shownExit code
  | toolFailed command code (some stderr) =>
      "`" ++ command ++ "` failed with exit code " ++ shownExit code ++ "\n" ++ stderr
  | compilationFailed source stderr => "compilation failed for " ++ source.text ++ "\n" ++ stderr
  | linkingFailed output stderr => "linking failed for " ++ output.text ++ "\n" ++ stderr
  | nothingVendored moduleName =>
      "module '" ++ moduleName ++
        "' builds the vendored library, but no [vendored] section is declared"
  | manifestNotFound directory =>
      "could not find `" ++ manifestName ++ "` in `" ++ directory.text ++
        "` or any parent directory"

end Cause

/-- What was being done when a failure arose. -/
inductive Activity where
  | spawning (program : String)
  | executing (program : String)
  | creatingDirectory (path : Path)
  | reading (path : Path)
  | writing (path : Path)
  | removing (path : Path)
  | readingManifest (path : Path)
  | parsingManifest (path : Path)
  | matching (pattern : String)
  | queryingConfig (directory : Path)
  | buildingArchive (archive : Path)
  | makingProbeDirectory (scratch : Path)
  | listingSymbols (artifact : Path)
  | preparing (moduleName : String)
  deriving DecidableEq, Repr

namespace Activity

/-- The wording under which a failure is reported. -/
def message : Activity → String
  | spawning program => "failed to spawn `" ++ program ++ "`"
  | executing program => "failed to execute `" ++ program ++ "`"
  | creatingDirectory path => "failed to create directory: " ++ path.text
  | reading path => "failed to read file: " ++ path.text
  | writing path => "failed to write file: " ++ path.text
  | removing path => "failed to remove file: " ++ path.text
  | readingManifest path => "failed to read manifest: " ++ path.text
  | parsingManifest path => "failed to parse manifest: " ++ path.text
  | matching pattern => "invalid glob pattern: " ++ pattern
  | queryingConfig directory => "failed to query build configuration in " ++ directory.text
  | buildingArchive archive => "failed to build " ++ archive.text
  | makingProbeDirectory scratch => "failed to create probe directory in " ++ scratch.text
  | listingSymbols artifact => "failed to list symbols of " ++ artifact.text
  | preparing moduleName => "pre-build step of '" ++ moduleName ++ "' failed"

end Activity

/-- A cause under the activities that led to it, the outermost first. -/
structure Failure where
  during : List Activity := []
  cause : Cause
  deriving DecidableEq, Repr

namespace Failure

/-- The activities and the cause as one text. -/
def message (f : Failure) : String :=
  ": ".intercalate (f.during.map Activity.message ++ [f.cause.message])

/-- Reports a failure as one of an activity around it. -/
def under (f : Failure) (activity : Activity) : Failure :=
  { f with during := activity :: f.during }

/-- The failure of a setup error. -/
def ofSetup (e : SetupError) : Failure := { cause := .setup e }

/-- The failure of a graph error. -/
def ofGraph (e : GraphError) : Failure := { cause := .graph e }

instance : Coe Cause Failure := ⟨fun cause => { cause }⟩
instance : Coe SetupError Failure := ⟨ofSetup⟩
instance : Coe GraphError Failure := ⟨ofGraph⟩

end Failure

end Drydock
