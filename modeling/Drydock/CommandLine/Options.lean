/-!
# Options

An argument list is read against the options that are allowed in it.  Reading stops at the first
argument that decides the outcome: a misuse, or a request for help or for the version.

* `--name`, `--name=value`, `--name value`
* `-n`, `-nvalue`, `-n=value`, `-n value`, and several switches in one argument
* a lone `-` is no option, and behind `--` nothing is
-/

namespace Drydock.CommandLine

/-- A reason to stop reading. -/
inductive Stop where
  | misuse
  | help
  | version
  deriving DecidableEq, Repr

/-- What an option means. -/
inductive OptionKind where
  | switch
  /-- A text follows. -/
  | text
  /-- A path follows, which is not empty. -/
  | path
  /-- Nothing behind the option counts. -/
  | request (stop : Stop)
  deriving DecidableEq, Repr

/-- An option that is allowed. -/
structure OptionSpec where
  name : String
  short : Option Char := none
  kind : OptionKind := .switch

/-- The options that were given, with their values. -/
abbrev Given := List (String × String)

namespace Given

/-- Whether an option was given. -/
def has (g : Given) (name : String) : Bool := (g.lookup name).isSome

/-- The value of an option. -/
def value? (g : Given) (name : String) : Option String := g.lookup name

/-- Adds an option, which may be given only once and only with a value of its kind. -/
def add (g : Given) (spec : OptionSpec) (value : String) : Except Stop Given :=
  if spec.kind = .path ∧ value = "" then .error .misuse
  else if g.has spec.name then .error .misuse
  else .ok (g ++ [(spec.name, value)])

end Given

/-- Whether an argument is an option by its form. -/
def isOption (arg : List Char) : Bool :=
  match arg with
  | '-' :: _ :: _ => true
  | _ => false

/-- What an argument of an option says. -/
inductive Reading where
  /-- Options that are complete. -/
  | done (given : Given)
  /-- Options, the last of which takes its value from the next argument. -/
  | open (given : Given) (spec : OptionSpec)

/-- The part of an argument in front of an equals sign, and what follows the sign. -/
def cutAtEquals (cs : List Char) : List Char × Option (List Char) :=
  let name := cs.takeWhile (· ≠ '=')
  match cs.drop name.length with
  | _ :: value => (name, some value)
  | [] => (name, none)

/-- Reads an argument behind its two dashes. -/
def readLong (specs : List OptionSpec) (given : Given) (body : List Char) : Except Stop Reading :=
  let (name, value) := cutAtEquals body
  let name := String.ofList name
  match specs.find? (·.name = name) with
  | some spec =>
      match spec.kind, value with
      | .switch, none => .done <$> given.add spec ""
      | .switch, some _ => .error .misuse
      | .request stop, none => .error stop
      | .request _, some _ => .error .misuse
      | _, some value => .done <$> given.add spec (.ofList value)
      | _, none => .ok (.open given spec)
  | none => .error .misuse

/-- Reads an argument behind its only dash. -/
def readShort (specs : List OptionSpec) (given : Given) : List Char → Except Stop Reading
  | [] => .ok (.done given)
  | c :: rest =>
      match specs.find? (·.short = some c) with
      | some spec =>
          match spec.kind with
          | .switch => do readShort specs (← given.add spec "") rest
          | .request stop => .error stop
          | _ =>
              match rest with
              | [] => .ok (.open given spec)
              | '=' :: value => .done <$> given.add spec (.ofList value)
              | value => .done <$> given.add spec (.ofList value)
      | none => .error .misuse

/-- Reads an argument that is an option. -/
def readOption (specs : List OptionSpec) (given : Given) (arg : List Char) : Except Stop Reading :=
  match arg with
  | '-' :: '-' :: body => readLong specs given body
  | _ :: body => readShort specs given body
  | [] => .error .misuse

/-- Reads options up to an argument that is none. -/
def readOptions (specs : List OptionSpec) (given : Given) :
    List String → Except Stop (Given × List String)
  | [] => .ok (given, [])
  | arg :: rest =>
      if arg = "--" ∨ !isOption arg.toList then .ok (given, arg :: rest)
      else
        match readOption specs given arg.toList with
        | .error stop => .error stop
        | .ok (.done given) => readOptions specs given rest
        | .ok (.open given spec) =>
            match rest with
            | [] => .error .misuse
            | value :: behind =>
                if isOption value.toList then .error .misuse
                else
                  match given.add spec value with
                  | .error stop => .error stop
                  | .ok given => readOptions specs given behind

/-- Reads options and at most the given number of other arguments. -/
def readAll (specs : List OptionSpec) (given : Given) :
    Nat → List String → Except Stop (Given × List String)
  | places, args =>
      match readOptions specs given args with
      | .error stop => .error stop
      | .ok (given, []) => .ok (given, [])
      | .ok (given, "--" :: rest) =>
          if rest.length ≤ places then .ok (given, rest) else .error .misuse
      | .ok (given, other :: rest) =>
          match places with
          | 0 => .error .misuse
          | places + 1 => do
              let (given, more) ← readAll specs given places rest
              return (given, other :: more)

end Drydock.CommandLine
