import Drydock.CommandLine.Options
import Drydock.Path
import Drydock.Settings

/-!
# Commands and their arguments

`Arguments.parse` reads the arguments of the program.  Some options may stand in front of the
command or behind it; where such an option is given in both places, the one behind counts.  The
options that select a link mode fall back to the environment.
-/

namespace Drydock

namespace CommandLine

/-- What the program is asked to do. -/
inductive Action where
  | build (force skipVerify : Bool)
  | plan (output : Option Path)
  | flags (moduleName : String) (json : Bool)
  | symbols
  | clean
  deriving DecidableEq, Repr

/-- The settings that options may give. -/
structure ModeOptions where
  mode : Option String := none
  libraryDir : Option String := none
  includeDir : Option String := none
  configureOptions : Option String := none
  deriving DecidableEq, Repr

/-- The arguments of the program. -/
structure Arguments where
  verbose : Bool := false
  noColor : Bool := false
  manifestPath : Option Path := none
  mode : ModeOptions := {}
  action : Action
  deriving DecidableEq, Repr

/-- The options that every command knows. -/
def globalSpecs : List OptionSpec :=
  [{ name := "verbose", short := some 'v' }, { name := "no-color" },
    { name := "manifest-path", kind := .path },
    { name := "help", short := some 'h', kind := .request .help }]

/-- The options in front of a command. -/
def frontSpecs : List OptionSpec :=
  globalSpecs ++ [{ name := "version", short := some 'V', kind := .request .version }]

/-- The options that select a link mode. -/
def modeSpecs : List OptionSpec :=
  [{ name := "mode", kind := .text }, { name := "library-dir", kind := .path },
    { name := "include-dir", kind := .path }, { name := "configure-options", kind := .text }]

/-- The options of a command, and how many other arguments it has. -/
def commandSpecs? (command : String) : Option (List OptionSpec × Nat) :=
  match command with
  | "build" =>
      some (modeSpecs ++ [{ name := "force", short := some 'f' }, { name := "no-verify" }], 0)
  | "plan" => some (modeSpecs ++ [{ name := "output", short := some 'o', kind := .path }], 0)
  | "flags" => some (modeSpecs ++ [{ name := "json" }], 1)
  | "symbols" => some (modeSpecs, 0)
  | "clean" => some ([], 0)
  | _ => none

/-- What a command is asked to do. -/
def actionOf (command : String) (given : Given) (names : List String) : Except Stop Action :=
  match command, names with
  | "build", [] => .ok (.build (given.has "force") (given.has "no-verify"))
  | "plan", [] => .ok (.plan ((given.value? "output").map Path.mk))
  | "flags", [name] => .ok (.flags name (given.has "json"))
  | "symbols", [] => .ok .symbols
  | "clean", [] => .ok .clean
  | _, _ => .error .misuse

/-- The value of a setting: that of its option, or that of its variable. -/
def settingOf (given : Given) (environment : Variables) (spec : OptionSpec) (name : String) :
    Except Stop (Option String) :=
  match given.value? spec.name with
  | some value => .ok (some value)
  | none =>
      match environment name with
      | some "" => if spec.kind = .path then .error .misuse else .ok (some "")
      | found => .ok found

/-- The settings of a command line. -/
def modeOptions (given : Given) (environment : Variables) : Except Stop ModeOptions := do
  return {
    mode :=
      ← settingOf given environment { name := "mode", kind := .text } Settings.linkModeVariable
    libraryDir :=
      ← settingOf given environment { name := "library-dir", kind := .path }
        Settings.libraryDirVariable
    includeDir :=
      ← settingOf given environment { name := "include-dir", kind := .path }
        Settings.includeDirVariable
    configureOptions :=
      ← settingOf given environment { name := "configure-options", kind := .text }
        Settings.configureOptionsVariable }

/-- Reads the arguments behind `help`: the command whose help is asked for, if any. -/
def helpTopic (args : List String) : Stop :=
  match args with
  | [] => .help
  | [topic] => if topic = "help" ∨ (commandSpecs? topic).isSome then .help else .misuse
  | _ => .misuse

/-- Reads the arguments of the program. -/
def Arguments.parse (environment : Variables) (args : List String) : Except Stop Arguments := do
  let (front, rest) ← readOptions frontSpecs [] args
  match rest with
  | [] => throw .misuse
  | "help" :: topics => throw (helpTopic topics)
  | command :: behind =>
      match commandSpecs? command with
      | none => throw .misuse
      | some (specs, places) =>
          let (given, names) ← readAll (globalSpecs ++ specs) [] places behind
          let action ← actionOf command given names
          let mode ← if action = .clean then pure {} else modeOptions given environment
          return {
            verbose := front.has "verbose" || given.has "verbose"
            noColor := front.has "no-color" || given.has "no-color"
            manifestPath :=
              ((given.value? "manifest-path").or (front.value? "manifest-path")).map Path.mk
            mode, action }

/-- The variables that the settings of a command line are read from. -/
def ModeOptions.lookup (o : ModeOptions) (environment : Variables) : Variables := fun name =>
  if name = Settings.linkModeVariable then o.mode
  else if name = Settings.libraryDirVariable then o.libraryDir
  else if name = Settings.includeDirVariable then o.includeDir
  else if name = Settings.configureOptionsVariable then o.configureOptions
  else environment name

end CommandLine

end Drydock
