import Drydock.Shell.Script
import Drydock.Shell.Tools
import Drydock.Shell.Words
import Drydock.Table

/-!
# The state of a running script

A `State` is what a script can see and change: the file tree, its variables and arguments, and what
it has written so far.  Output is kept in the order in which it was written, each piece with the
descriptor it went to, so that two descriptors that are joined later keep their order.
-/

namespace Drydock.Shell

/-- How a command leaves the commands around it. -/
inductive Flow where
  /-- The next command follows. -/
  | next
  /-- The script ends with the present status. -/
  | exit
  /-- The script is killed by a signal. -/
  | killed (signal : Nat)
  /-- Loops end. -/
  | broke (levels : Nat)
  /-- Loops go on with their next round. -/
  | continued (levels : Nat)
  /-- A function ends. -/
  | returned
  deriving DecidableEq, Repr

/-- What a script can see and change. -/
structure State where
  workspace : Workspace
  /-- The name that the script was started by. -/
  name : String
  args : List String := []
  values : Table String := .empty
  /-- The variables that programs get. -/
  exported : NameSet := .empty
  functions : List (String × Script) := []
  input : Bytes := []
  /-- What was written, with its descriptor. -/
  output : List (Nat × Bytes) := []
  /-- The exit code of the last command. -/
  status : Nat := 0
  /-- Whether a command inside a word set the status. -/
  answered : Bool := false
  /-- Whether the script ends at the first command that fails. -/
  failFast : Bool := false
  /-- Whether the script itself looks at the status of what runs. -/
  watched : Bool := false
  /-- The variables of the running function, with their values before it. -/
  locals : List (String × Option String) := []

/-- An action of a script. -/
abbrev Step := StateM State

/-- The number by which a script knows itself. -/
def processNumber : String := "4096"

namespace State

/-! ## Output -/

/-- Writes bytes to a descriptor. -/
def write (s : State) (descriptor : Nat) (bytes : Bytes) : State :=
  if bytes = [] then s else { s with output := s.output ++ [(descriptor, bytes)] }

/-- What went to a descriptor. -/
def written (s : State) (descriptor : Nat) : Bytes :=
  s.output.flatMap fun chunk => if chunk.1 = descriptor then chunk.2 else []

/-- Writes an error message of the shell and sets the status. -/
def complain (s : State) (line code : Nat) (message : String) : State :=
  let text := s.name ++ ": " ++ toString line ++ ": " ++ message ++ "\n"
  { s.write 2 (Text.Utf8.encode text) with status := code }

/-- Takes over what a part of the script that ran on its own left behind; of its output the
descriptors that `keep` selects. -/
def absorb (s inner : State) (keep : Nat → Bool) : State :=
  { s with
    workspace := { s.workspace with tree := inner.workspace.tree }
    status := inner.status
    output := s.output ++ inner.output.filter fun chunk => keep chunk.1 }

/-- Takes over what a tool did. -/
def perform (s : State) (e : Effect) : State :=
  { (s.write 1 e.out).write 2 e.err with workspace := e.workspace, status := e.code }

/-! ## Parameters -/

/-- Sets a variable. -/
def assign (s : State) (name value : String) : State :=
  { s with values := s.values.insert name value }

/-- Sets several variables in turn. -/
def assignAll (s : State) (values : List (String × String)) : State :=
  values.foldl (fun s v => s.assign v.1 v.2) s

/-- Makes a variable visible to programs. -/
def «export» (s : State) (name : String) : State :=
  { s with exported := s.exported.insert name () }

/-- Forgets a variable. -/
def unset (s : State) (name : String) : State :=
  { s with values := .ofList (s.values.entries.filter (·.1 ≠ name)) }

/-- Makes a variable belong to the running function. -/
def declare (s : State) (name : String) : State :=
  { s with locals := (name, s.values.get? name) :: s.locals }

/-- Gives the variables of the running function their earlier values back. -/
def undeclare (s : State) : State :=
  s.locals.foldl
    (fun s v =>
      match v.2 with
      | some value => s.assign v.1 value
      | none => s.unset v.1)
    { s with locals := [] }

/-- The value of a variable as an integer; zero where it is none. -/
def integer (s : State) (name : String) : Int :=
  (((s.values.get? name).map Text.trim).bind String.toInt?).getD 0

/-- Reads the options that `set` gets, and the arguments behind them. -/
def setOptions (s : State) (args : List String) : State :=
  match args with
  | [] => s
  | "--" :: rest => { s with args := rest }
  | "-o" :: option :: rest =>
      setOptions { s with failFast := s.failFast || option = "errexit" } rest
  | "+o" :: option :: rest =>
      setOptions { s with failFast := s.failFast && option ≠ "errexit" } rest
  | first :: rest =>
      match first.toList with
      | '-' :: letters => setOptions { s with failFast := s.failFast || 'e' ∈ letters } rest
      | '+' :: letters => setOptions { s with failFast := s.failFast && 'e' ∉ letters } rest
      | _ => { s with args }

/-- The variables that programs get. -/
def environment (s : State) : Table String :=
  .ofList (s.values.entries.filter fun e => (s.exported.get? e.1).isSome)

/-- The value of a parameter. -/
def parameter? (s : State) (name : String) : Option String :=
  match name with
  | "?" => some (toString s.status)
  | "#" => some (toString s.args.length)
  | "$" => some processNumber
  | "!" => some ""
  | "-" => some ""
  | "0" => some s.name
  | "@" => if s.args = [] then none else some (" ".intercalate s.args)
  | "*" => if s.args = [] then none else some (" ".intercalate s.args)
  | _ =>
      match name.toNat? with
      | some n => s.args[n - 1]?
      | none => s.values.get? name

/-- The flow behind a command: a script that ends at failures ends at this one. -/
def flowAfter (s : State) (flow : Flow) : Flow :=
  if flow = .next ∧ s.failFast ∧ !s.watched ∧ s.status ≠ 0 then .exit else flow

/-- A value as a piece of a word. -/
def valuePiece (quoted : Bool) (value : String) : Piece :=
  if quoted then .fixed value.toList true else .loose value.toList

/-- The pieces of a parameter.  The arguments fall into fields of their own, except where `$*` is
quoted. -/
def pieces (s : State) (name : String) (quoted : Bool) : List Piece :=
  if name = "@" ∨ (name = "*" ∧ !quoted) then
    (s.args.map (valuePiece quoted)).intersperse .cut
  else [valuePiece quoted ((s.parameter? name).getD "")]

/-- Whether a parameter counts as present. -/
def has (s : State) (colon : Bool) (name : String) : Bool :=
  match s.parameter? name with
  | some value => !colon || value ≠ ""
  | none => false

end State

/-- Carries out an action whose status the script itself looks at. -/
def watching (action : Step Flow) : Step Flow := do
  let before ← get
  set { before with watched := true }
  let flow ← action
  modify fun s => { s with watched := before.watched }
  return flow

/-- Lets the unquoted text of a form's word fall into fields. -/
def loosen : Piece → Piece
  | .fixed cs false => .loose cs
  | piece => piece

/-- Whether a word is the list of arguments in quotes and nothing more. -/
def isQuotedArguments (word : Word) : Bool :=
  word.any (fun | .parameter "@" .plain true => true | _ => false) &&
    word.all fun
      | .parameter "@" .plain true => true
      | .text "" _ => true
      | _ => false

/-! ## Redirections -/

/-- Where a descriptor leads. -/
inductive Sink where
  /-- To what the descriptor of that number meant outside. -/
  | outer (descriptor : Nat)
  | file (location : Location)
  | nowhere
  deriving DecidableEq, Repr

/-- Where the descriptors lead that were redirected. -/
abbrev Sinks := List (Nat × Sink)

/-- Where a descriptor leads. -/
def Sinks.sink (sinks : Sinks) (descriptor : Nat) : Sink :=
  (sinks.lookup descriptor).getD (.outer descriptor)

namespace State

/-- Opens a file for writing. -/
def openFile (s : State) (sinks : Sinks) (descriptor : Nat) (target : String)
    (create : Workspace → Path → Except IoError Workspace) : Except String (State × Sinks) :=
  if target = "/dev/null" then .ok (s, (descriptor, .nowhere) :: sinks)
  else
    match create s.workspace ⟨target⟩ with
    | .error e =>
        let reason := match e with
          | .notFound => "Directory nonexistent"
          | .notADirectory => "Directory nonexistent"
          | e => shortMessage e
        .error ("cannot create " ++ target ++ ": " ++ reason)
    | .ok w =>
        match w.locate ⟨target⟩ with
        | .ok l => .ok ({ s with workspace := w }, (descriptor, .file l) :: sinks)
        | .error e => .error ("cannot create " ++ target ++ ": " ++ shortMessage e)

/-- Opens a redirection. -/
def redirect (s : State) (sinks : Sinks) (descriptor : Nat) (kind : RedirectKind)
    (target : String) : Except String (State × Sinks) :=
  match kind with
  | .write => s.openFile sinks descriptor target fun w p => w.write p []
  | .append => s.openFile sinks descriptor target fun w p => w.append p []
  | .read =>
      if target = "/dev/null" then .ok ({ s with input := [] }, sinks)
      else
        match s.workspace.readBytes ⟨target⟩ with
        | .ok bytes => .ok ({ s with input := bytes }, sinks)
        | .error .isADirectory => .ok ({ s with input := [] }, sinks)
        | .error e =>
            let reason := match e with
              | .notFound => "No such file"
              | .notADirectory => "No such file"
              | e => shortMessage e
            .error ("cannot open " ++ target ++ ": " ++ reason)
  | .document => .ok ({ s with input := Text.Utf8.encode target }, sinks)
  | .duplicate =>
      match target.toNat? with
      | some n => .ok (s, (descriptor, sinks.sink n) :: sinks)
      | none =>
          if target = "-" then .ok (s, (descriptor, .nowhere) :: sinks)
          else .error "Bad fd number"

/-- Passes a piece of output on to where its descriptor leads. -/
def deliver (sinks : Sinks) (s : State) (chunk : Nat × Bytes) : State :=
  match sinks.sink chunk.1 with
  | .outer descriptor => s.write descriptor chunk.2
  | .nowhere => s
  | .file l =>
      match s.workspace.tree.node? l with
      | some (.file contents executable) =>
          { s with workspace := s.workspace.place l (.file (contents ++ chunk.2) executable) }
      | _ => s

/-- Ends redirections that began in the state `before`. -/
def settle (before : State) (sinks : Sinks) (s : State) : State :=
  s.output.foldl (deliver sinks) { s with output := before.output, input := before.input }

end State

/-! ## Signals -/

/-- The signals by name. -/
def signalNames : List (String × Nat) :=
  [("HUP", 1), ("INT", 2), ("QUIT", 3), ("ABRT", 6), ("KILL", 9), ("USR1", 10), ("SEGV", 11),
    ("USR2", 12), ("PIPE", 13), ("ALRM", 14), ("TERM", 15)]

/-- The number of a signal. -/
def signal? (text : String) : Option Nat :=
  match text.toNat? with
  | some n => some n
  | none =>
      let cs := text.toList
      signalNames.lookup (.ofList ((Text.dropStart? "SIG".toList cs).getD cs))

/-- What is reported of a program that a signal ended. -/
def signalReport (signal : Nat) : String :=
  match signal with
  | 1 => "Hangup\n"
  | 6 => "Aborted\n"
  | 9 => "Killed\n"
  | 11 => "Segmentation fault\n"
  | 14 => "Alarm clock\n"
  | 15 => "Terminated\n"
  | _ => ""

end Drydock.Shell
