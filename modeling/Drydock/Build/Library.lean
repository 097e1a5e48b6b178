import Drydock.Build.Files
import Drydock.Build.Tools
import Drydock.LibraryMake
import Drydock.MakeVariables
import Drydock.Platform

/-!
# Configuring and making the vendored library

* `configureLibrary` — tries configure options in turn until the script accepts one.
* `queryVariables` — asks the vendored build for its variables.
* `makeLibrary` — builds the static archive, unless it is already built.
-/

namespace Drydock.Build

/-! ## Configuring -/

/-- The configure script with the given options.  It runs in the directory of the library under the
compiler variables. -/
def configureInvocation (dir : Path) (vars : List ConfigureVariable) (options : String) :
    Invocation where
  command := ⟨"sh", "./configure" :: Flags.split options⟩
  directory := some dir
  overlay := .ofList (vars.map fun v => (v.name, v.value))

/-- The last lines of a text. -/
def lastLines (count : Nat) (text : String) : List String :=
  let all := Text.lines text
  all.drop (all.length - count)

/-- Tries one set of options, and says whether the script accepted it. -/
def tryConfigure (dir : Path) (vars : List ConfigureVariable) (options : String) : Build Bool := do
  let i := configureInvocation dir vars options
  log .info ("running `" ++ i.command.text ++ "` in " ++ dir.text)
  match ← outcome (capture i) with
  | .ok e =>
      if e.success then return true
      log .warn
        ("configure with options '" ++ options ++ "' failed with exit code " ++ shownExit e.code)
      logAll .debug ((lastLines 5 (Text.Utf8.decodeLossy e.stderr)).map ("  " ++ ·))
      return false
  | .error f =>
      log .warn ("could not run configure: " ++ f.message)
      return false

/-- The first options that the script accepts. -/
def firstAccepted (dir : Path) (vars : List ConfigureVariable) :
    List String → Build (Option String)
  | [] => return none
  | options :: rest => do
      if ← tryConfigure dir vars options then return some options
      firstAccepted dir vars rest

/-- The options to try: the preferred ones, then the fallbacks, and no options where there are
neither. -/
def configureCandidates (preferred : Option String) (fallbacks : List String) : List String :=
  match preferred.toList ++ fallbacks with
  | [] => [""]
  | candidates => candidates

/-- Configures the library and returns the options that succeeded, if any did. -/
def configureLibrary (dir : Path) (preferred : Option String) (fallbacks : List String)
    (vars : List ConfigureVariable) : Build (Option String) := do
  let script := dir.join ⟨"configure"⟩
  if !(← workspace).exists script then fail (SetupError.missingConfigureScript script)
  firstAccepted dir vars (configureCandidates preferred fallbacks)

/-! ## Asking for variables -/

/-- The variables that the vendored build reports. -/
def queryVariables (dir : Path) (make : String) : Build MakeVariables := do
  let e ← during (.queryingConfig dir) (runChecked {
    command := ⟨make, ["-s", "print-config"]⟩
    directory := some dir })
  let v := MakeVariables.parse (Text.Utf8.decodeLossy e.stdout)
  logAll .debug (v.entries.map fun (key, value) => "make config " ++ key ++ "=" ++ value)
  return v

/-! ## Making -/

/-- What became of a request to build the library. -/
inductive LibraryOutcome where
  | built
  /-- Everything was there already. -/
  | skipped
  deriving DecidableEq, Repr

/-- Whether the archive and all expected objects are there. -/
def isMade (w : Workspace) (b : LibraryMake) : Bool := b.artifacts.all w.exists

/-- Builds the archive.  Without force it is left alone where it is already built. -/
def makeLibrary (b : LibraryMake) (compileArgs : List String) (defines : List Define)
    (force : Bool) : Build LibraryOutcome := do
  if !force && isMade (← workspace) b then
    log .info ("skipping '" ++ b.archive.text ++ "' (already built)")
    return .skipped
  log .info ("building '" ++ b.archive.text ++ "'")
  during (.buildingArchive b.archive) (showChecked {
    command := b.command compileArgs defines
    directory := some b.dir })
  return .built

end Drydock.Build
