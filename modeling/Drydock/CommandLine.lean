import Drydock.Build.Session
import Drydock.CommandLine.Arguments
import Drydock.CommandLine.LogFilter
import Drydock.Json
import Drydock.Plan.Report

/-!
# The program

`CommandLine.run` carries out what the arguments ask for and gives what the program prints.  The
settings are read before the manifest.

The error stream shows the messages that the filter lets through and what the tools wrote there, in
the order in which it happened, and then how the command ended.
-/

namespace Drydock.CommandLine

/-- What the program prints, and the code it exits with. -/
structure Reply where
  code : Nat := 0
  stdout : Bytes := []
  stderr : Bytes := []
  deriving DecidableEq, Repr

/-- The text that a command that ended well prints. -/
structure Printed where
  stdout : String := ""
  stderr : String := ""
  deriving DecidableEq, Repr

/-! ## Commands -/

/-- What `build` prints. -/
def printBuild (r : Build.BuildReport) : Printed :=
  let finished := r.modules.map fun m =>
    "    Finished `" ++ m.name ++ "` -> " ++ m.output.text ++ "\n"
  let verified := match r.verified with
    | some (.clean symbols) =>
        "    Verified " ++ toString symbols ++ " exported symbols (" ++ r.mode.word ++ " mode)\n"
    | _ => ""
  { stderr := String.join finished ++ verified }

/-- What `symbols` prints. -/
def printCheck : SymbolCheck → Printed
  | .clean symbols =>
      { stderr := "    Verified " ++ toString symbols ++ " exported symbols, no conflicts\n" }
  | .skipped reason => { stderr := "     Skipped symbol check: " ++ reason.text ++ "\n" }

/-- What `flags` prints. -/
def printFlags (name : String) (json : Bool) (f : CompilerFlags) : Printed :=
  if json then { stdout := f.json.render ++ "\n" }
  else
    let lines := f.assignments.map fun v => v.1 ++ "=" ++ v.2 ++ "\n"
    { stdout := "# Compiler variables for `" ++ name ++ "`:\n" ++ String.join lines }

/-- Writes a plan to a file, or prints it. -/
def printPlan (output : Option Path) (p : Plan) : Build Printed := do
  let text := p.json.render
  match output with
  | none => return { stdout := text ++ "\n" }
  | some path => do
      Build.writeText path text
      let count := toString p.modules.length
      return { stderr := "     Wrote plan for " ++ count ++ " modules to " ++ path.text ++ "\n" }

/-- What `clean` prints. -/
def printClean (r : Build.CleanReport) : Printed :=
  let lines := r.counts.map fun c => "     Removed " ++ toString c.2 ++ " " ++ c.1 ++ "\n"
  { stderr := String.join lines }

/-- The request of a command that resolves a configuration. -/
def requestOf (a : Arguments) (environment : Variables) (force : Bool) : Build Request := do
  let settings ← Build.ofSetup (Settings.ofVariables (a.mode.lookup environment))
  return { manifestPath := a.manifestPath, settings := { settings with force } }

/-- Carries out what the arguments ask for. -/
def perform (a : Arguments) (environment : Variables) : Build Printed :=
  match a.action with
  | .build force skipVerify => do
      let r ← requestOf a environment force
      return printBuild (← Build.buildPackage r skipVerify)
  | .plan output => do
      let r ← requestOf a environment false
      printPlan output (← Build.planPackage r)
  | .flags name json => do
      let r ← requestOf a environment false
      return printFlags name json (← Build.flagsOf r name)
  | .symbols => do
      let r ← requestOf a environment false
      return printCheck (← Build.verifyExisting r)
  | .clean => do
      let m ← Build.loadManifest (← Build.locateManifest a.manifestPath)
      return printClean (← Build.cleanPackage m)

/-! ## Output -/

/-- The report of symbols that several modules define. -/
def conflictReport (cs : List SymbolConflict) : String :=
  "slipway::verify::symbol_conflict\n\n  × symbols defined in multiple modules (" ++
    toString cs.length ++ " conflicts)\n" ++
    "  help: rename the symbol in one module, or add it to `ignore-symbols` in\n" ++
    "        [verify]\n\n"

/-- The report of a failure. -/
def failureReport (f : Failure) : String :=
  match f.cause with
  | .setup e => e.diagnostic.render false
  | .graph e => e.diagnostic.render false
  | .conflicts cs => conflictReport cs
  | _ => "error: " ++ f.message ++ "\n"

/-- What an event adds to the streams. -/
def Reply.addEvent (filter : LogFilter) (r : Reply) : Event → Reply
  | .log level message =>
      if filter.shows level then
        { r with stderr := r.stderr ++ Text.Utf8.encode (logLine level message) }
      else r
  | .ran _ (.ok e) true => { r with stdout := r.stdout ++ e.stdout, stderr := r.stderr ++ e.stderr }
  | .ran _ _ _ => r

/-- What the program prints of the events of a run and of its end. -/
def replyOf (filter : LogFilter) (events : List Event) (result : Except Failure Printed) : Reply :=
  let warnings := filter.ignored.map fun word =>
    "ignoring `" ++ word ++ "`: invalid filter directive\n"
  let shown := events.foldl (Reply.addEvent filter)
    { stderr := Text.Utf8.encode (String.join warnings) }
  match result with
  | .ok p =>
      { shown with
        stdout := shown.stdout ++ Text.Utf8.encode p.stdout
        stderr := shown.stderr ++ Text.Utf8.encode p.stderr }
  | .error f =>
      { shown with code := 1, stderr := shown.stderr ++ Text.Utf8.encode (failureReport f) }

/-- The version of the program. -/
def versionText : String := "slipway 0.1.0\n"

/-- How the program is used. -/
def usageText : String :=
  "Usage: slipway [OPTIONS] <COMMAND>\n\n" ++
    "Commands:\n" ++
    "  build    Configure the vendored library and build every module\n" ++
    "  plan     Print the resolved build plan as JSON without compiling\n" ++
    "  flags    Show the merged compiler variables for a module\n" ++
    "  symbols  Check already built modules for conflicting symbols\n" ++
    "  clean    Remove generated sources, config headers and objects\n"

/-- The reply to arguments that name no command. -/
def replyToStop : Stop → Reply
  | .misuse =>
      { code := 2, stderr := Text.Utf8.encode ("error: invalid arguments\n\n" ++ usageText) }
  | .help => { stdout := Text.Utf8.encode usageText }
  | .version => { stdout := Text.Utf8.encode versionText }

/-- The variable that selects the messages that are shown. -/
def logVariable : String := "SLIPWAY_LOG"

/-- Carries out what the arguments ask for and gives what the program prints. -/
def run (args : List String) (l : Launcher) (m : Machine) : Reply × Machine :=
  match Arguments.parse m.environment.get? args with
  | .error stop => (replyToStop stop, m)
  | .ok a =>
      let filter := LogFilter.ofRun (m.environment.get? logVariable) a.verbose
      let (result, after) := (perform a m.environment.get?).run l { m with events := [] }
      (replyOf filter after.events result, after)

end Drydock.CommandLine
