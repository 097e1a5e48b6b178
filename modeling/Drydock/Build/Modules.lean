import Drydock.Build.Library
import Drydock.Build.Probe
import Drydock.Plan
import Drydock.Symbols

/-!
# Building modules

A module is built in three parts: its pre-build step, the compilation of its sources and the link of
its shared object.  Modules are built in the order of the graph, and the first failure ends the
build.
-/

namespace Drydock.Build

/-- The make run that a context asks for. -/
def libraryMakeOf (c : BuildContext) (v : Vendored) (dir : Path) : LibraryMake where
  dir
  make := c.settings.tools.makeProgram
  target := v.staticTarget
  archive := dir.join v.archive
  objects := c.resolution.artifacts.expected

/-- Reports a header that is written for a module. -/
def logHeader (p : Path) (m : Module) : Build Unit :=
  log .info ("creating " ++ p.text ++ " for '" ++ m.name ++ "'")

/-- Writes the header of the vendored library and builds its archive. -/
def prebuildVendored (c : BuildContext) (m : Module) (flags : CompilerFlags) (header : Path) :
    Build (Option LibraryOutcome) := do
  if !c.resolution.mode.buildsVendored then
    log .debug ("external library in use; nothing to build for '" ++ m.name ++ "'")
    return none
  match c.manifest.vendored, c.manifest.vendoredDir? with
  | some v, some dir => do
      logHeader header m
      writeHeader (ConfigHeader.ofFlags v.keyPrefix flags []) header
      return some
        (← makeLibrary (libraryMakeOf c v dir) m.compileArgs m.defines c.settings.force)
  | _, _ => fail (Cause.nothingVendored m.name)

/-- Carries out the pre-build step of a prepared module. -/
def prebuild (c : BuildContext) (m : Module) (flags : CompilerFlags) :
    Build (Option LibraryOutcome) :=
  match m.prebuild with
  | none => return none
  | some (.configHeader path keyPrefix placeholders) => do
      logHeader path m
      writeHeader (ConfigHeader.ofFlags keyPrefix flags placeholders) path
      return none
  | some (.buildVendoredLibrary header) => prebuildVendored c m flags header

/-- Makes the directory of a file that a command writes. -/
def ensureDirectoryOf (p : Path) : Build Unit :=
  match p.parent? with
  | some parent => ensureDirectory parent
  | none => return

/-- Runs a command of the plan that writes `output`; `cause` makes its failure from what it wrote to
its error stream. -/
def runStep (command : Command) (output : Path) (cause : String → Cause) : Build Unit := do
  ensureDirectoryOf output
  log .debug command.text
  let e ← capture { command }
  if e.success then return
  fail (cause (Text.Utf8.decodeLossy e.stderr))

/-- Compiles the sources of a plan, each with its command and its object. -/
def compileAll : List (Command × Path × Path) → Build Unit
  | [] => return
  | (command, source, object) :: rest => do
      runStep command object (.compilationFailed source)
      compileAll rest

/-- Carries out a plan: compiles every source, then links. -/
def carryOut (p : ModulePlan) : Build Unit := do
  compileAll (p.compile.zip (p.sources.zip p.objects))
  runStep p.link p.output (.linkingFailed p.output)

/-- Builds a module.  `known` are the flags for C99 where the run has found them; they are returned
for the modules that follow. -/
def buildModule (c : BuildContext) (g : BuildGraph) (known : Option (List String)) (m : Module) :
    Build (BuiltModule × List String) := do
  log .info ("building '" ++ m.name ++ "' extension")
  let prepared := c.prepare g m
  let flags := c.flags prepared
  let _ ← during (.preparing m.name) (prebuild c prepared flags)
  let toolchain := c.toolchain flags
  let standard ← standardFlags known toolchain flags.cflags c.manifest.buildDir
  let plan := c.planPrepared g prepared (toolchain.withStandard standard) flags
  carryOut plan
  return (⟨plan.name, plan.output⟩, standard)

/-- Builds modules one after the other. -/
def buildAll (c : BuildContext) (g : BuildGraph) (known : Option (List String)) :
    List Module → Build (List BuiltModule)
  | [] => return []
  | m :: rest => do
      let (built, standard) ← buildModule c g known m
      return built :: (← buildAll c g (some standard) rest)

/-- Builds every module of the graph. -/
def buildGraph (c : BuildContext) (g : BuildGraph) : Build (List BuiltModule) :=
  buildAll c g none g.modules

end Drydock.Build
