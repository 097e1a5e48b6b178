import Drydock.Build.Library
import Drydock.Resolution

/-!
# Resolving the configuration of a run

* `resolve` — configures the vendored library, asks its build for variables and records them.
* `inspectRecord` — resolves from the record of the last run; it starts nothing and writes nothing.
-/

namespace Drydock.Build

/-- Reports a requested mode that two external directories set aside. -/
def warnOverruled (s : Settings) : Build Unit :=
  match s.overruledMode with
  | some mode =>
      log .warn
        ("external library directories supplied; ignoring requested mode '" ++ mode.word ++ "'")
  | none => return

/-- The link mode of the settings. -/
def selectMode (s : Settings) : Build LinkMode := do
  warnOverruled s
  ofSetup s.selectMode

/-- The header in which the vendored library keeps its configuration. -/
def configHeaderOf (dir : Path) : Path := dir.join ⟨"config.h"⟩

/-- Reports the variables for the configure script. -/
def logVariables (vars : List ConfigureVariable) : Build Unit :=
  logAll .info (vars.map fun v => "(" ++ v.origin.word ++ ") " ++ v.name ++ "=" ++ v.value)

/-- Configures the vendored library.  Where no options succeed it gets the minimal header. -/
def configureVendored (v : Vendored) (dir : Path) (s : Settings) (d : CompilerDefaults) :
    Build (Option String) := do
  let preferred := Resolution.preferredOptions s v
  log .info (v.name ++ " configure options: " ++ preferred.getD "(none)")
  let vars := configureVariables s.tools d
  logVariables vars
  let chosen ← configureLibrary dir preferred v.configureFallbacks vars
  match chosen with
  | some options => log .info (v.name ++ " configured with options: " ++ options)
  | none =>
      log .warn (v.name ++ " could not be configured; using conservative defaults")
      writeMinimalHeader (configHeaderOf dir)
  return chosen

/-- Configures the vendored library, asks its build for variables and records them. -/
def resolveBuiltin (m : Manifest) (v : Vendored) (dir : Path) (mode : LinkMode) (s : Settings)
    (d : CompilerDefaults) : Build Resolution := do
  let chosen ← configureVendored v dir s d
  let make ← queryVariables dir s.tools.makeProgram
  logAll .info (make.entries.map fun (key, value) => v.name ++ " config " ++ key ++ "=" ++ value)
  writeText (m.recordPath v) make.render
  ofSetup (Resolution.forMode mode v dir s make chosen)

/-- The definitions that the features of a library are looked up in: those of its header, where
the bundled copy has one. -/
def featureDefines (source : LibrarySource) (dir : Path) : Build (Table String) := do
  if source = .builtin && (← workspace).exists (configHeaderOf dir) then
    readDefines (configHeaderOf dir)
  else return .empty

/-- Writes the config-values file, where the manifest names one. -/
def writeFeatures (m : Manifest) (v : Vendored) (dir : Path) (r : Resolution) : Build Unit :=
  match v.configValues with
  | none => return
  | some file => do
      let source := r.source.getD .external
      let defines ← featureDefines source dir
      writeConfigValues (ConfigValues.ofDefines v.name source v.features defines) (m.path file)

/-- Writes the config headers that are missing. -/
def writeDefaultHeaders (m : Manifest) (v : Vendored) : Build Unit := do
  let created ← ensureHeaders (v.defaultConfigHeaders.map m.path)
  logAll .info (created.map fun p => "created default " ++ p.text)

/-- Resolves the configuration of a run.  In the modes that build the vendored library it is
configured and asked for its variables, which are recorded for later runs; then the config-values
file and the missing default headers are written. -/
def resolve (m : Manifest) (s : Settings) (d : CompilerDefaults) : Build Resolution := do
  let mode ← selectMode s
  log .info ("link mode is " ++ mode.word)
  match m.vendored, m.vendoredDir? with
  | some v, some dir => do
      let r ←
        if mode.buildsVendored then resolveBuiltin m v dir mode s d
        else ofSetup (Resolution.forMode mode v dir s .empty none)
      writeFeatures m v dir r
      writeDefaultHeaders m v
      return r
  | _, _ => do
      log .debug "no vendored library declared"
      return .standalone mode

/-- The variables that the last run recorded.  Without a record the objects are unknown and left
empty. -/
def recordedVariables (m : Manifest) (v : Vendored) : Build MakeVariables := do
  let p := m.recordPath v
  if (← workspace).isFile p then
    log .debug ("using recorded build configuration " ++ p.text)
    return MakeVariables.parse (← readText p)
  log .warn
    (v.name ++ " has not been configured yet; its objects and libraries are omitted until " ++
      "`slipway build` runs")
  return Table.empty.insert v.objectsVariable ""

/-- Resolves the configuration from the record of the last run. -/
def inspectRecord (m : Manifest) (s : Settings) : Build Resolution := do
  let mode ← selectMode s
  match m.vendored, m.vendoredDir? with
  | some v, some dir => do
      let make ← if mode.buildsVendored then recordedVariables m v else pure .empty
      ofSetup (Resolution.forMode mode v dir s make none)
  | _, _ => return .standalone mode

end Drydock.Build
