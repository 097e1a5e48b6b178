import Drydock.Build.Modules
import Drydock.Build.Resolve
import Drydock.Build.Verify
import Drydock.Manifest.Modules
import Drydock.Manifest.Reader

/-!
# Sessions

A `Session` is a manifest that is read, a module graph that is ordered and a configuration that is
resolved.  The module declarations are checked before the vendored tree is touched.

The commands follow: `buildPackage`, `planPackage`, `flagsOf`, `verifyExisting` and `cleanPackage`.
-/

namespace Drydock

/-- A resolved configuration with the module graph of a package. -/
structure Session where
  context : BuildContext
  graph : BuildGraph
  deriving DecidableEq

/-- What every command that reads a manifest is given. -/
structure Request where
  /-- The manifest; without one it is searched from the working directory upward. -/
  manifestPath : Option Path := none
  settings : Settings := {}
  deriving DecidableEq, Repr

namespace Build

/-! ## Manifests -/

/-- The manifest in a directory or above it. -/
def findManifest (w : Workspace) (start : Path) : Option Path :=
  (start.ancestors.map fun dir => dir.join ⟨manifestName⟩).find? w.isFile

/-- The manifest of a run. -/
def locateManifest (explicit : Option Path) : Build Path := do
  match explicit with
  | some p => return p
  | none =>
      let m ← machine
      match findManifest m.workspace m.directoryPath with
      | some p => return p
      | none => fail (Cause.manifestNotFound m.directoryPath)

/-- Reads a manifest; its paths are resolved against the directory it stands in. -/
def loadManifest (p : Path) : Build Manifest := do
  let text ← during (.readingManifest p) (inspect fun w => w.readText p)
  during (.parsingManifest p)
    (ofExcept ((Manifest.parse text (p.parent?.getD ⟨"."⟩)).mapError fun e =>
      { cause := .manifest e }))

/-! ## Opening a session -/

/-- The module graph of a manifest. -/
def orderModules (m : Manifest) : Build BuildGraph := do
  let modules ← ofExcept (m.modules? (← workspace))
  let g ← ofGraph (BuildGraph.ofModules modules)
  log .debug ("build order: " ++ ", ".intercalate g.names)
  return g

/-- Opens a session.  With `configure` the vendored library is configured; otherwise its
configuration is taken from the record of the last run. -/
def openSession (r : Request) (configure : Bool) : Build Session := do
  let m ← loadManifest (← locateManifest r.manifestPath)
  log .debug ("using manifest in " ++ m.root.text)
  let defaults := (CompilerDefaults.ofPlatform .elf).override m.compiler
  let g ← orderModules m
  log .debug ("build order: " ++ " ".intercalate g.names)
  let resolution ←
    if configure then resolve m r.settings defaults else inspectRecord m r.settings
  return ⟨⟨m, r.settings, defaults, resolution⟩, g⟩

/-- Checks the symbols of modules that a session built. -/
def verifySession (s : Session) (modules : List BuiltModule) : Build SymbolCheck :=
  let c := s.context
  verify c.resolution.mode c.manifest.verification.nm c.defaults.platform modules
    c.manifest.verification.ignoreSymbols

/-- The modules whose files are there, in build order. -/
def existingOutputs (c : BuildContext) : List Module → Build (List BuiltModule)
  | [] => return []
  | m :: rest => do
      let output := c.outputPath m
      if (← workspace).exists output then return ⟨m.name, output⟩ :: (← existingOutputs c rest)
      log .warn ("'" ++ m.name ++ "' has not been built (" ++ output.text ++ ")")
      existingOutputs c rest

/-! ## Commands -/

/-- What a build made. -/
structure BuildReport where
  mode : LinkMode
  modules : List BuiltModule
  /-- The symbol check, unless it was not asked for. -/
  verified : Option SymbolCheck
  deriving DecidableEq, Repr

/-- Resolves the configuration, builds every module and checks their symbols. -/
def buildPackage (r : Request) (skipVerify : Bool) : Build BuildReport := do
  let s ← openSession r true
  let modules ← buildGraph s.context s.graph
  let verified ←
    if skipVerify then do
      log .info "skipping symbol collision check (disabled)"
      pure none
    else some <$> verifySession s modules
  return ⟨s.context.resolution.mode, modules, verified⟩

/-- The plan of a package. -/
def planPackage (r : Request) : Build Plan := do
  let s ← openSession r false
  return s.context.plan s.graph

/-- The flags of one module. -/
def flagsOf (r : Request) (name : String) : Build CompilerFlags := do
  let s ← openSession r false
  match s.graph.get? name with
  | some m => return s.context.flags (s.context.prepare s.graph m)
  | none => fail (SetupError.unknownModule name)

/-- Checks the symbols of the modules that are built. -/
def verifyExisting (r : Request) : Build SymbolCheck := do
  let s ← openSession r false
  verifySession s (← existingOutputs s.context s.graph.modules)

/-- The files that cleaning removed, by category. -/
structure CleanReport where
  generatedSources : List Path
  configHeaders : List Path
  objects : List Path
  deriving DecidableEq, Repr

/-- The categories with the number of their files. -/
def CleanReport.counts (r : CleanReport) : List (String × Nat) :=
  [("generated sources", r.generatedSources.length), ("config headers", r.configHeaders.length),
    ("objects", r.objects.length)]

/-- The number of files of all categories. -/
def CleanReport.total (r : CleanReport) : Nat :=
  r.generatedSources.length + r.configHeaders.length + r.objects.length

/-- Removes the files that match the patterns of the manifest, one category after the other. -/
def cleanPackage (m : Manifest) : Build CleanReport := do
  let generatedSources ← removeMatching m.root m.cleaning.generatedSources
  let configHeaders ← removeMatching m.root m.cleaning.configHeaders
  let objects ← removeMatching m.root m.cleaning.objects
  let report : CleanReport := { generatedSources, configHeaders, objects }
  logAll .debug (report.counts.map fun (name, count) =>
    "removed " ++ toString count ++ " " ++ name)
  return report

end Build

end Drydock
