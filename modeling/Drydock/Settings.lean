import Drydock.Error
import Drydock.LinkMode

/-!
# Settings of a run

Everything a run takes from the environment is read once into a `Settings` value.  An empty
`SLIPWAY_` variable counts as absent; the compiler variables are taken as they are.

* `ToolVariables` — the compiler variables and the marks of the build host.
* `Settings.ofVariables` — reads a look-up of variables.
* `Settings.selectMode` — the link mode the settings ask for.
-/

namespace Drydock

/-- A look-up of environment variables. -/
abbrev Variables := String → Option String

/-- Compiler variables and marks of the build host. -/
structure ToolVariables where
  cc : Option String := none
  cppflags : Option String := none
  cflags : Option String := none
  ldflags : Option String := none
  make : Option String := none
  /-- Whether the package is built for redistribution. -/
  wheel : Bool := false
  /-- Whether the host only builds documentation. -/
  docsBuild : Bool := false
  deriving DecidableEq, Inhabited, Repr

namespace ToolVariables

/-- Reads the variables of an environment. -/
def ofVariables (get : Variables) : ToolVariables where
  cc := get "CC"
  cppflags := get "CPPFLAGS"
  cflags := get "CFLAGS"
  ldflags := get "LDFLAGS"
  make := get "MAKE"
  wheel := get "CIBUILDWHEEL" = some "1"
  docsBuild := get "READTHEDOCS" = some "True"

/-- The program that drives the vendored build. -/
def makeProgram (v : ToolVariables) : String := v.make.getD "make"

/-- A compiler variable by its name. -/
def get? (v : ToolVariables) (name : String) : Option String :=
  if name = "CC" then v.cc
  else if name = "CPPFLAGS" then v.cppflags
  else if name = "CFLAGS" then v.cflags
  else if name = "LDFLAGS" then v.ldflags
  else none

end ToolVariables

/-- The settings of one run. -/
structure Settings where
  requestedMode : Option LinkMode := none
  /-- Directory of an installed copy of the library. -/
  libraryDir : Option Path := none
  /-- Directory of the headers of that copy. -/
  includeDir : Option Path := none
  /-- Configure options that are tried first. -/
  configureOptions : Option String := none
  tools : ToolVariables := {}
  /-- Build the vendored library even where it is already built. -/
  force : Bool := false
  deriving DecidableEq, Inhabited, Repr

namespace Settings

/-- The variable that asks for a link mode. -/
def linkModeVariable : String := "SLIPWAY_LINK_MODE"

/-- The variable that names the directory of an installed library. -/
def libraryDirVariable : String := "SLIPWAY_LIBRARY_DIR"

/-- The variable that names the directory of its headers. -/
def includeDirVariable : String := "SLIPWAY_INCLUDE_DIR"

/-- The variable with the configure options that are tried first. -/
def configureOptionsVariable : String := "SLIPWAY_CONFIGURE_OPTIONS"

/-- A look-up in which empty values are absent. -/
def nonEmpty (get : Variables) : Variables := fun key => (get key).filter (· ≠ "")

/-- The mode that a text asks for, if there is a text. -/
def requestedModeOf : Option String → Except SetupError (Option LinkMode)
  | none => .ok none
  | some word =>
      match LinkMode.ofWord? word with
      | some mode => .ok (some mode)
      | none => .error (.unknownLinkMode word)

/-- Reads the settings from variables.  Empty `SLIPWAY_` variables are absent. -/
def ofVariables (get : Variables) : Except SetupError Settings := do
  let own := nonEmpty get
  let requestedMode ← requestedModeOf (own linkModeVariable)
  return {
    requestedMode
    libraryDir := (own libraryDirVariable).map Path.mk
    includeDir := (own includeDirVariable).map Path.mk
    configureOptions := own configureOptionsVariable
    tools := .ofVariables get }

/-- The two external directories, where both are given. -/
def externalDirs (s : Settings) : Except SetupError (Path × Path) :=
  match s.libraryDir, s.includeDir with
  | some libraryDir, some includeDir => .ok (libraryDir, includeDir)
  | _, _ => .error (.missingExternalDirs s.libraryDir s.includeDir)

/-- The requested mode that two external directories set aside, if any. -/
def overruledMode (s : Settings) : Option LinkMode :=
  match s.libraryDir, s.includeDir with
  | some _, some _ => s.requestedMode.filter (· ≠ .external)
  | _, _ => none

/-- The link mode of a run.  Two external directories select external linking whatever was
requested; only one of them, or a request for external linking without them, is an error. -/
def selectMode (s : Settings) : Except SetupError LinkMode :=
  match s.libraryDir, s.includeDir with
  | some _, some _ => .ok .external
  | none, none =>
      match s.requestedMode with
      | some .external => .error (.missingExternalDirs none none)
      | some mode => .ok mode
      | none => .ok .shared
  | libraryDir, includeDir => .error (.missingExternalDirs libraryDir includeDir)

end Settings

end Drydock
