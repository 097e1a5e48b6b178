import Drydock.ConfigValues
import Drydock.MakeVariables
import Drydock.Manifest

/-!
# Resolved configurations

A `Resolution` says how the vendored library enters the modules of a run: which artifacts are linked
into which module, where its headers and libraries are found, and which libraries every module
needs.

`Resolution.forMode` works it out from the link mode and the variables that the vendored build
reports.
-/

namespace Drydock

/-- What the vendored library adds to the link of a module. -/
inductive VendoredArtifacts where
  /-- Its objects, for the foundational module. -/
  | objects (paths : List Path)
  /-- Its static archive, for every module. -/
  | archive (path : Path)
  | none
  deriving DecidableEq, Repr

namespace VendoredArtifacts

/-- The artifacts that a module links. -/
def forModule (a : VendoredArtifacts) (foundational : Bool) : List Path :=
  match a with
  | objects paths => if foundational then paths else []
  | archive path => [path]
  | none => []

/-- Objects that have to exist after the vendored build, besides the archive. -/
def expected : VendoredArtifacts → List Path
  | objects paths => paths
  | _ => []

end VendoredArtifacts

/-- How the vendored library enters the modules of a run. -/
structure Resolution where
  mode : LinkMode
  /-- Where the library comes from; absent where the package has none. -/
  source : Option LibrarySource := none
  /-- The configure options that succeeded. -/
  configureOptions : Option String := none
  artifacts : VendoredArtifacts := .none
  /-- Header directories of the library. -/
  includeDirs : List Path := []
  /-- Directories of an installed copy of the library. -/
  libraryDirs : List Path := []
  /-- Libraries of every module. -/
  libraries : List String := []
  /-- Variables that the vendored build reports. -/
  makeVariables : MakeVariables := .empty
  deriving DecidableEq

namespace Resolution

/-- The resolution of a package without a vendored library. -/
def standalone (mode : LinkMode) : Resolution := { mode }

/-- The resolution of a link mode.  The make variables count in the modes that build the library;
an installed copy needs its two directories instead. -/
def forMode (mode : LinkMode) (v : Vendored) (dir : Path) (s : Settings) (make : MakeVariables)
    (configureOptions : Option String) : Except SetupError Resolution :=
  match mode with
  | .external => do
      let (libraryDir, includeDir) ← s.externalDirs
      return {
        mode
        source := some .external
        configureOptions
        includeDirs := [includeDir]
        libraryDirs := [libraryDir]
        libraries := v.systemLibraries ++ [v.externalLibrary]
        makeVariables := make }
  | .separate =>
      return {
        mode
        source := some .builtin
        configureOptions
        artifacts := .archive (dir.join v.archive)
        includeDirs := [dir]
        libraries := v.systemLibraries ++ make.libraries
        makeVariables := make }
  | .shared => do
      let objects ← make.objects v.objectsVariable dir
      return {
        mode
        source := some .builtin
        configureOptions
        artifacts := .objects objects
        includeDirs := [dir]
        libraries := v.systemLibraries ++ make.libraries
        makeVariables := make }

/-- The configure options that are tried first: those for documentation on a host that builds it,
where the manifest gives any, and those of the settings otherwise. -/
def preferredOptions (s : Settings) (v : Vendored) : Option String :=
  (if s.tools.docsBuild then v.docsConfigureOptions else none).or s.configureOptions

end Resolution

end Drydock
