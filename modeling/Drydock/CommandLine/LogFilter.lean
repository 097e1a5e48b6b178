import Drydock.Machine

/-!
# Which messages are shown

A filter is a list of directives, separated by commas: a level, a source, or a source with a level.
Of the directives whose source a message comes from, the one with the longest source decides, and
of equal ones the last.
-/

namespace Drydock.CommandLine

/-- The source of all messages. -/
def logSource : String := "slipway"

/-- How much is shown of a source: the messages from a level upward, or nothing. -/
structure Directive where
  source : String
  level : Option Level
  deriving DecidableEq, Repr

/-- The importance of a level. -/
def rank : Level → Nat
  | .trace => 0
  | .debug => 1
  | .info => 2
  | .warn => 3
  | .error => 4

/-- Reads a level, in any case or as a number. -/
def levelOf? (word : String) : Option (Option Level) :=
  match String.ofList (word.toList.map Char.toLower) with
  | "off" => some none
  | "0" => some none
  | "error" => some (some .error)
  | "1" => some (some .error)
  | "warn" => some (some .warn)
  | "2" => some (some .warn)
  | "info" => some (some .info)
  | "3" => some (some .info)
  | "debug" => some (some .debug)
  | "4" => some (some .debug)
  | "trace" => some (some .trace)
  | "5" => some (some .trace)
  | _ => none

/-- Whether a word may name a source. -/
def isSource (cs : List Char) : Bool :=
  cs ≠ [] && cs.all fun c => c.isAlphanum || c ∈ ['_', ':', '-']

/-- Reads a directive. -/
def Directive.parse? (word : String) : Option Directive :=
  match Text.splitOnce '=' word with
  | some (source, level) =>
      if !isSource source.toList then none
      else if level = "" then some ⟨source, some .trace⟩
      else (levelOf? level).map fun level => ⟨source, level⟩
  | none =>
      match levelOf? word with
      | some level => some ⟨"", level⟩
      | none => if isSource word.toList then some ⟨word, some .trace⟩ else none

/-- A filter, with the words that are no directives. -/
structure LogFilter where
  directives : List Directive
  ignored : List String := []

/-- Reads a filter.  Without a single directive the errors are shown. -/
def LogFilter.parse (text : String) : LogFilter :=
  let words := ((Text.splitChars ',' text.toList).map String.ofList).filter (· ≠ "")
  let directives := words.filterMap Directive.parse?
  { directives := if directives = [] then [⟨"", some .error⟩] else directives
    ignored := words.filter fun word => (Directive.parse? word).isNone }

/-- The directive that decides about the messages. -/
def LogFilter.deciding? (f : LogFilter) : Option Directive :=
  (f.directives.filter fun d => d.source.toList.isPrefixOf logSource.toList).foldl
    (fun best d =>
      match best with
      | some b => if b.source.length ≤ d.source.length then some d else some b
      | none => some d)
    none

/-- Whether messages of a level are shown. -/
def LogFilter.shows (f : LogFilter) (level : Level) : Bool :=
  match f.deciding? with
  | some d => d.level.any fun least => rank least ≤ rank level
  | none => false

/-- The name of a level, right-aligned. -/
def levelLabel : Level → String
  | .trace => "TRACE"
  | .debug => "DEBUG"
  | .info => " INFO"
  | .warn => " WARN"
  | .error => "ERROR"

/-- The line of a message. -/
def logLine (level : Level) (message : String) : String :=
  levelLabel level ++ " " ++ message ++ "\n"

/-- The filter of a run: the one that is given, unless it is empty. -/
def LogFilter.ofRun (given : Option String) (verbose : Bool) : LogFilter :=
  match given.filter (· ≠ "") with
  | some text => .parse text
  | none => ⟨[⟨logSource, some (if verbose then .debug else .info)⟩], []⟩

end Drydock.CommandLine
