import Drydock.CompilerFlags
import Drydock.Graph
import Drydock.Resolution
import Drydock.Toolchain

/-!
# Build plans

A `Plan` lists the modules of a package in build order, each with the inputs of its compile and link
steps and the commands that carry them out.  It is what is printed before a build and what a build
follows.

* `BuildContext.prepare` — what happens to a module before its pre-build step.
* `BuildContext.planModule`, `BuildContext.plan` — the plan of one module and of all.
-/

namespace Drydock

/-- What is fixed for a run once its configuration is resolved. -/
structure BuildContext where
  manifest : Manifest
  settings : Settings
  defaults : CompilerDefaults
  resolution : Resolution
  deriving DecidableEq

/-- Everything that is needed to build one module. -/
structure ModulePlan where
  name : String
  /-- The shared object that is built. -/
  output : Path
  /-- Modules that are linked against, the foundational one first. -/
  dependsOn : List String
  sources : List Path
  /-- The object of every source. -/
  objects : List Path
  extraObjects : List Path
  includeDirs : List Path
  libraryDirs : List Path
  libraries : List String
  linkArgs : List String
  flags : CompilerFlags
  prebuild : Option PrebuildStep
  /-- One compile command for every source. -/
  compile : List Command
  link : Command
  deriving DecidableEq, Repr

/-- The plan of a package. -/
structure Plan where
  mode : LinkMode
  platform : Platform
  configureOptions : Option String
  modules : List ModulePlan
  deriving DecidableEq, Repr

/-- The macro that every module defines when the package is built for redistribution. -/
def wheelDefine : Define := ⟨"BUILDING_WHEEL", none⟩

namespace BuildContext

/-- The file name of a built module. -/
def outputFile (c : BuildContext) (m : Module) : String := m.outputFile c.manifest.extSuffix

/-- The file that a module is built to. -/
def outputPath (c : BuildContext) (m : Module) : Path := c.manifest.outputPath (c.outputFile m)

/-- The libraries of a module: those of every module, its own, and the modules it depends on. -/
def librariesOf (c : BuildContext) (g : BuildGraph) (m : Module) : List String :=
  c.resolution.libraries ++ m.libraries ++
    (g.dependencies m.name).map fun dep => dep.linkName c.manifest.extSuffix

/-- The directories that a module's init step adds. -/
def initDirs (c : BuildContext) (m : Module) : List Path × List Path :=
  match m.init with
  | some .injectVendoredPaths => (c.resolution.includeDirs, c.resolution.libraryDirs)
  | none => ([], [])

/-- Everything that happens to a module before its pre-build step: it gets the vendored artifacts
and all libraries, the macro of a redistributable build, the directories of its init step, the
output directory and the link arguments of the platform. -/
def prepare (c : BuildContext) (g : BuildGraph) (m : Module) : Module :=
  { m with
    extraObjects := m.extraObjects ++ c.resolution.artifacts.forModule m.foundational
    libraries := c.librariesOf g m
    defines := m.defines ++ (if c.settings.tools.wheel then [wheelDefine] else [])
    includeDirs := m.includeDirs ++ (c.initDirs m).1
    libraryDirs := m.libraryDirs ++ (c.initDirs m).2 ++ [c.manifest.outputDir]
    linkArgs := m.linkArgs ++ c.defaults.platform.loaderArgs (c.outputFile m) }

/-- The flags of a prepared module. -/
def flags (c : BuildContext) (m : Module) : CompilerFlags :=
  CompilerFlags.merge c.settings.tools c.defaults m

/-- The compiler of a prepared module. -/
def toolchain (c : BuildContext) (flags : CompilerFlags) : Toolchain :=
  Toolchain.ofCommandLine flags.cc c.defaults.sharedLinkFlags

/-- The object of a source. -/
def objectOf (c : BuildContext) (name : String) (source : Path) : Path :=
  objectPath (c.manifest.objectDir name) c.manifest.root source

/-- The plan of a prepared module with the given compiler and flags. -/
def planPrepared (c : BuildContext) (g : BuildGraph) (m : Module) (t : Toolchain)
    (flags : CompilerFlags) : ModulePlan :=
  let objects := m.sources.map (c.objectOf m.name)
  let output := c.outputPath m
  { name := m.name
    output
    dependsOn := (g.dependencies m.name).map (·.name)
    sources := m.sources
    objects
    extraObjects := m.extraObjects
    includeDirs := m.includeDirs
    libraryDirs := m.libraryDirs
    libraries := m.libraries
    linkArgs := m.linkArgs
    flags
    prebuild := m.prebuild
    compile := m.sources.map fun source =>
      t.compile source (c.objectOf m.name source) flags.cppflags flags.cflags
    link := t.link objects m.extraObjects output flags.ldflags flags.libs }

/-- The plan of a module. -/
def planModule (c : BuildContext) (g : BuildGraph) (m : Module) : ModulePlan :=
  let prepared := c.prepare g m
  let flags := c.flags prepared
  c.planPrepared g prepared (c.toolchain flags) flags

/-- The plan of all modules, in build order. -/
def plan (c : BuildContext) (g : BuildGraph) : Plan where
  mode := c.resolution.mode
  platform := c.defaults.platform
  configureOptions := c.resolution.configureOptions
  modules := g.modules.map (c.planModule g)

end BuildContext

end Drydock
