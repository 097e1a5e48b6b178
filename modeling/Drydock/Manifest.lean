import Drydock.Module
import Drydock.Platform

/-!
# Manifests

A `Manifest` is the declarative description of a package: the modules it declares, the options they
share, the vendored library, and what is checked and cleaned.  Paths are kept as they were written;
`Manifest.path` resolves them against the directory of the manifest.
-/

namespace Drydock

/-- What a package says about itself. -/
structure Package where
  name : String
  /-- Directory of the built modules. -/
  outputDir : Path := ⟨"."⟩
  /-- Directory of objects, probes and records. -/
  buildDir : Path := ⟨"build/slipway"⟩
  /-- Suffix of the files of built modules. -/
  extSuffix : Option String := none
  deriving DecidableEq, Inhabited, Repr

/-- The library whose sources are bundled with a package. -/
structure Vendored where
  name : String
  /-- Directory of the sources. -/
  path : Path
  /-- First part of the names in the generated header. -/
  keyPrefix : String
  /-- The static archive that make builds. -/
  archive : Path
  /-- The make variable that lists the objects of the library. -/
  objectsVariable : String
  /-- The make target of the archive. -/
  staticTarget : String := "lib-static"
  /-- Configure options that are tried after the preferred ones. -/
  configureFallbacks : List String := []
  /-- Configure options of a host that builds documentation. -/
  docsConfigureOptions : Option String := none
  /-- System libraries of every module. -/
  systemLibraries : List String := ["z"]
  /-- The name of an installed copy. -/
  externalLibrary : String
  /-- Feature macros that are copied into the config-values file. -/
  features : List String := []
  /-- The config-values file. -/
  configValues : Option Path := none
  /-- Headers that are created with minimal contents where they are missing. -/
  defaultConfigHeaders : List Path := []
  deriving DecidableEq, Inhabited, Repr

/-- Options that all modules share. -/
structure ModuleDefaults where
  includeDirs : List Path := []
  libraryDirs : List Path := []
  defines : List String := []
  undefines : List String := []
  compileArgs : List String := []
  linkArgs : List String := []
  sources : List String := []
  init : Option InitStep := none
  deriving DecidableEq, Inhabited, Repr

/-- How the symbols of built modules are checked. -/
structure Verification where
  /-- Symbols that several modules may define. -/
  ignoreSymbols : List String := []
  /-- The tool that lists symbols. -/
  nm : String := "nm"
  deriving DecidableEq, Inhabited, Repr

/-- Patterns of the files that cleaning removes. -/
structure Cleaning where
  generatedSources : List String := []
  configHeaders : List String := []
  objects : List String := []
  deriving DecidableEq, Inhabited, Repr

/-- A module as a manifest declares it. -/
structure ModuleEntry where
  name : String
  /-- Source files and patterns. -/
  sources : List String
  dependsOn : List String := []
  libraries : List String := []
  extraObjects : List Path := []
  includeDirs : List Path := []
  libraryDirs : List Path := []
  defines : List String := []
  compileArgs : List String := []
  linkArgs : List String := []
  foundational : Bool := false
  prebuild : Option PrebuildStep := none
  init : Option InitStep := none
  deriving DecidableEq, Inhabited, Repr

/-- The description of a package. -/
structure Manifest where
  package : Package
  vendored : Option Vendored := none
  defaults : ModuleDefaults := {}
  verification : Verification := {}
  cleaning : Cleaning := {}
  compiler : CompilerOverrides := {}
  modules : List ModuleEntry := []
  /-- Directory of the manifest. -/
  root : Path := ⟨""⟩
  deriving DecidableEq, Inhabited, Repr

namespace Manifest

/-- A path of the manifest, resolved against its directory. -/
def path (m : Manifest) (relative : Path) : Path := m.root.join relative

/-- Directory of the built modules. -/
def outputDir (m : Manifest) : Path := m.path m.package.outputDir

/-- Directory of objects, probes and records. -/
def buildDir (m : Manifest) : Path := m.path m.package.buildDir

/-- Directory of the vendored sources. -/
def vendoredDir? (m : Manifest) : Option Path := m.vendored.map fun v => m.path v.path

/-- Suffix of the files of built modules. -/
def extSuffix (m : Manifest) : String := m.package.extSuffix.getD ".so"

/-- The file that a module of the given file name is built to. -/
def outputPath (m : Manifest) (file : String) : Path := m.outputDir.join ⟨file⟩

/-- The directory of a module's objects. -/
def objectDir (m : Manifest) (name : String) : Path := m.buildDir.join ⟨name⟩

/-- The file that records the configuration of the vendored build for later runs. -/
def recordPath (m : Manifest) (v : Vendored) : Path :=
  m.buildDir.join ⟨v.name ++ "-print-config.txt"⟩

end Manifest

end Drydock
