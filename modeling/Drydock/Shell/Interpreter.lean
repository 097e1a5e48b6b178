import Drydock.Machine
import Drydock.Shell.Arithmetic
import Drydock.Shell.Reader
import Drydock.Shell.State

/-!
# Running scripts

`execute` runs a script and `startFile` a file that is a program.  Scripts start programs and the
shell is a program, so both are defined together, with a bound on the depth of nested steps: a step
beyond the bound ends the script as a signal would.

* A file that is a program of the system names its tool; see `programBytes`.
* A file that begins with `#!` is run by the program named there.
* Inside of a script, any other program is a script itself.
-/

namespace Drydock.Shell

/-- The contents of a program of the system. -/
def programBytes (name : String) : Bytes := 0x7f :: Text.Utf8.encode name

/-- The tool whose program a file is. -/
def programName? (contents : Bytes) : Option String :=
  match contents with
  | 0x7f :: name => Text.Utf8.decode? name
  | _ => none

/-- The program and the argument that the first line of a file names. -/
def interpreterLine? (contents : Bytes) : Option (String × List String) :=
  match (Text.Utf8.decodeLossy contents).toList with
  | '#' :: '!' :: rest =>
      let line := Text.trimChars (rest.takeWhile (· ≠ '\n'))
      let program := line.takeWhile fun c => !isGap c
      let arg := Text.trimChars (line.drop program.length)
      some (.ofList program, if arg = [] then [] else [.ofList arg])
  | _ => none

/-- The signal that ends a script whose bound is used up. -/
def boundSignal : Nat := 9

/-- What the shell is asked to run. -/
structure Task where
  name : String
  text : String
  args : List String
  failFast : Bool

/-- Reads the arguments of the shell. -/
def task? (s : State) (args : List String) : Except String Task :=
  let options := args.takeWhile fun a => a.startsWith "-" && a ≠ "--" && a ≠ "-"
  let operands := match args.drop options.length with
    | "--" :: rest => rest
    | "-" :: rest => rest
    | rest => rest
  let failFast := options.any fun o => 'e' ∈ o.toList
  if options.any fun o => 'c' ∈ o.toList then
    match operands with
    | [] => .error "-c requires an argument"
    | text :: rest => .ok ⟨rest.headD s.name, text, rest.tail, failFast⟩
  else
    match operands with
    | [] => .ok ⟨s.name, Text.Utf8.decodeLossy s.input, [], failFast⟩
    | file :: rest =>
        match s.workspace.readBytes ⟨file⟩ with
        | .ok bytes => .ok ⟨file, Text.Utf8.decodeLossy bytes, rest, failFast⟩
        | .error .isADirectory => .ok ⟨file, "", rest, failFast⟩
        | .error _ => .error ("cannot open " ++ file ++ ": No such file")

/-- Looks for a program on the search path of a script. -/
def searchProgram (s : State) (environment : Table String) (name : String) : Option Path :=
  if '/' ∈ name.toList then (if s.workspace.exists ⟨name⟩ then some ⟨name⟩ else none)
  else
    ((Machine.searchDirs environment).map fun dir => dir.join ⟨name⟩).find?
      (Machine.isProgram s.workspace)

/-- A level count of `break` and `continue`. -/
def levelsOf (args : List String) : Nat := max 1 ((args.head?.bind String.toNat?).getD 1)

/-- How a loop goes on after a round of its body. -/
inductive Round where
  | again
  | leave (flow : Flow)

/-- How a loop goes on after its body ended with a flow. -/
def Round.ofFlow : Flow → Round
  | .next => .again
  | .continued 1 => .again
  | .continued (levels + 1) => .leave (.continued levels)
  | .broke 1 => .leave .next
  | .broke (levels + 1) => .leave (.broke levels)
  | flow => .leave flow

/-- The exit code that a script ends with when it leaves by a flow. -/
def codeOf (flow : Flow) (s : State) : Nat :=
  match flow with
  | .killed signal => 128 + signal
  | _ => s.status % 256

/-- Changes to a directory. -/
def changeDirectory (line : Nat) (target : String) (s : State) : State :=
  match s.workspace.locate ⟨target⟩ with
  | .ok l =>
      if s.workspace.tree.isDirectoryAt l then
        { s.assign "PWD" ("/" ++ "/".intercalate l) with
          workspace := { s.workspace with directory := l }, status := 0 }
      else s.complain line 2 ("cd: can't cd to " ++ target)
  | .error _ => s.complain line 2 ("cd: can't cd to " ++ target)

/-- Exports variables, with values where they are given. -/
def exportAll (args : List String) (s : State) : State :=
  args.foldl
    (fun s arg =>
      match Text.splitOnce '=' arg with
      | some (name, value) => (s.assign name value).export name
      | none => s.export arg)
    { s with status := 0 }

/-- Reads a line of input into variables; the last one gets the rest of the line. -/
def readLine (names : List String) (s : State) : State :=
  let line := s.input.takeWhile (· ≠ 10)
  let rest := s.input.drop line.length
  let cs := (Text.Utf8.decodeLossy line).toList
  let step := fun (found : List Char × State) (name : String) =>
    let start := found.1.dropWhile isGap
    let word := start.takeWhile fun c => !isGap c
    (start.drop word.length, found.2.assign name (.ofList word))
  let (tail, assigned) := names.dropLast.foldl step (cs, s)
  let done := match names.getLast? with
    | some name => assigned.assign name (.ofList (Text.trimChars tail))
    | none => assigned
  { done with input := rest.drop 1, status := if rest = [] then 1 else 0 }

/-- The signal that a script sends to itself; nothing where it sends none. -/
def ownSignal? (args : List String) : Option Nat :=
  match args with
  | ["-s", signal, target] => if target = processNumber then signal? signal else none
  | [signal, target] =>
      if target = processNumber then
        match signal.toList with
        | '-' :: name => signal? (.ofList name)
        | _ => none
      else none
  | [target] => if target = processNumber then some 15 else none
  | _ => none

/-- The commands of the shell that need nothing but its state. -/
def builtin? (line : Nat) (name : String) (args : List String) :
    Option (State → Flow × State) :=
  let next := fun (change : State → State) => some fun s => (Flow.next, change s)
  match name with
  | ":" => next fun s => { s with status := 0 }
  | "exit" => some fun s =>
      match args with
      | [] => (.exit, s)
      | code :: _ =>
          match code.toNat? with
          | some n => (.exit, { s with status := n })
          | none => (.exit, s.complain line 2 ("exit: Illegal number: " ++ code))
  | "return" => some fun s =>
      (.returned, { s with status := (args.head?.bind String.toNat?).getD s.status })
  | "break" => some fun s => (.broke (levelsOf args), { s with status := 0 })
  | "continue" => some fun s => (.continued (levelsOf args), { s with status := 0 })
  | "cd" => next fun s =>
      changeDirectory line (args.head?.getD ((s.values.get? "HOME").getD "")) s
  | "pwd" => next fun s =>
      { s.write 1 (Text.Utf8.encode ("/" ++ "/".intercalate s.workspace.directory ++ "\n")) with
        status := 0 }
  | "shift" => some fun s =>
      let count := (args.head?.bind String.toNat?).getD 1
      if s.args.length < count then (.exit, s.complain line 2 "shift: can't shift that many")
      else (.next, { s with args := s.args.drop count, status := 0 })
  | "export" => next (exportAll args)
  | "readonly" => next fun s =>
      { s.assignAll (args.filterMap (Text.splitOnce '=')) with status := 0 }
  | "local" => next fun s =>
      let names := args.map fun arg => ((Text.splitOnce '=' arg).map (·.1)).getD arg
      let declared := names.foldl State.declare s
      { declared.assignAll (args.filterMap (Text.splitOnce '=')) with status := 0 }
  | "unset" => next fun s =>
      { (args.filter fun a => !a.startsWith "-").foldl State.unset s with status := 0 }
  | "set" => next fun s => { s.setOptions args with status := 0 }
  | "read" => next (readLine (args.filter (· ≠ "-r")))
  | "trap" => next fun s => { s with status := 0 }
  | "umask" => next fun s => { s with status := 0 }
  | "wait" => next fun s => { s with status := 0 }
  | "kill" => some fun s =>
      match ownSignal? args with
      | some 0 => (.next, { s with status := 0 })
      | some n => (.killed n, s)
      | none => (.next, s.complain line 1 "kill: No such process")
  | _ =>
      (tool? name).map fun act s =>
        let e := act s.workspace args s.input
        let place := s.name ++ ": " ++ toString line ++ ": "
        let err :=
          if name ∈ ownTools ∧ e.err ≠ [] then Text.Utf8.encode place ++ e.err else e.err
        (.next, s.perform { e with err })

mutual

/-- Expands a part of a word. -/
def expandPart : Nat → Part → Step (List Piece)
  | 0, _ => return []
  | depth + 1, part =>
      match part with
      | .text t quoted => return [.fixed t.toList quoted]
      | .output script quoted => do
          let text ← outputOf depth script
          return [State.valuePiece quoted text]
      | .arithmetic expression quoted => do
          let text ← expandText depth expression
          let s ← get
          let value := (Expression.parse? text.toList).bind (Expression.value? s.integer)
          return [State.valuePiece quoted ((value.map toString).getD "")]
      | .parameter name form quoted => do
          let s ← get
          match form with
          | .plain => return s.pieces name quoted
          | .length =>
              return [.fixed (toString ((s.parameter? name).getD "").length).toList quoted]
          | .fallback colon word =>
              if s.has colon name then return s.pieces name quoted
              else return (← expandParts depth word).map loosen
          | .alternative colon word =>
              if s.has colon name then return (← expandParts depth word).map loosen
              else return [State.valuePiece quoted ""]
          | .assignment colon word =>
              if s.has colon name then return s.pieces name quoted
              else do
                let value ← expandText depth word
                modify fun s => s.assign name value
                return [State.valuePiece quoted value]
          | .trimmed atEnd longest pattern => do
              let field := joinPieces (← expandParts depth pattern)
              let value := trimMatch atEnd longest field ((s.parameter? name).getD "")
              return [State.valuePiece quoted value]
termination_by structural depth _ => depth

/-- Expands the parts of a word in turn. -/
def expandParts : Nat → Word → Step (List Piece)
  | 0, _ => return []
  | depth + 1, word => List.flatten <$> word.mapM (expandPart depth)
termination_by structural depth _ => depth

/-- Expands a word that stays one field. -/
def expandText : Nat → Word → Step String
  | 0, _ => return ""
  | depth + 1, word => (fun pieces => Field.text (joinPieces pieces)) <$> expandParts depth word
termination_by structural depth _ => depth

/-- Expands a word to fields. -/
def expandFields : Nat → Word → Step (List String)
  | 0, _ => return []
  | depth + 1, word => do
      let s ← get
      if isQuotedArguments word && s.args.isEmpty then return []
      else do
        let pieces ← expandParts depth word
        let s ← get
        return (fieldsOf pieces).flatMap (filesOf s.workspace)
termination_by structural depth _ => depth

/-- The output of a script without the line ends behind it. -/
def outputOf : Nat → Script → Step String
  | 0, _ => return ""
  | depth + 1, script => do
      let s ← get
      let (flow, inner) := execute depth script { s with output := [], watched := false }
      set { s.absorb inner (· ≠ 1) with status := codeOf flow inner, answered := true }
      let text := (Text.Utf8.decodeLossy (inner.written 1)).toList.filter (· ≠ '\x00')
      return .ofList (text.reverse.dropWhile (· = '\n')).reverse
termination_by structural depth _ => depth

/-- Opens redirections in turn. -/
def openAll (line : Nat) : Nat → List Redirect → Sinks → Step (Option Sinks)
  | 0, _, _ => return none
  | _ + 1, [], sinks => return some sinks
  | depth + 1, .mk descriptor kind target :: rest, sinks => do
      let target ← expandText depth target
      match (← get).redirect sinks descriptor kind target with
      | .ok (s, sinks) => do
          set s
          openAll line depth rest sinks
      | .error message => do
          modify fun s => s.complain line 2 message
          return none
termination_by structural depth _ _ => depth

/-- Carries an action out with redirections around it.  Where one of them cannot be opened the
action is left out. -/
def redirected (line : Nat) (redirects : List Redirect) (action : Step Flow) : Nat → Step Flow
  | 0 => return .killed boundSignal
  | depth + 1 =>
      if redirects.isEmpty then action
      else do
        let before ← get
        match ← openAll line depth redirects [] with
        | none => return .next
        | some sinks => do
            modify fun s => { s with output := [] }
            let flow ← action
            modify (State.settle before sinks)
            return flow
termination_by structural depth => depth

/-- Runs a script. -/
def execute : Nat → Script → Step Flow
  | 0, _ => return .killed boundSignal
  | depth + 1, script =>
      match script with
      | .nothing => return .next
      | .simple line assignments words redirects => do
          let flow ← runSimple line assignments words redirects depth
          return (← get).flowAfter flow
      | .sequence a b => do
          match ← execute depth a with
          | .next => execute depth b
          | flow => return flow
      | .both a b => do
          match ← watching (execute depth a) with
          | .next => if (← get).status = 0 then execute depth b else return .next
          | flow => return flow
      | .either a b => do
          match ← watching (execute depth a) with
          | .next => if (← get).status = 0 then return .next else execute depth b
          | flow => return flow
      | .negated a => do
          let flow ← watching (execute depth a)
          modify fun s => { s with status := if s.status = 0 then 1 else 0 }
          return flow
      | .pipe a b => do
          let s ← get
          let (_, left) := execute depth a { s with output := [] }
          let between := { s.absorb left (· ≠ 1) with input := left.written 1 }
          let (flow, right) := execute depth b { between with output := [] }
          set { (s.absorb left (· ≠ 1)).absorb right (fun _ => true) with
            status := codeOf flow right }
          return (← get).flowAfter .next
      | .group body redirects => redirected 1 redirects (execute depth body) depth
      | .subshell body redirects => do
          let flow ← redirected 1 redirects (isolated body depth) depth
          return (← get).flowAfter flow
      | .each name items body redirects =>
          let action : Step Flow := do
            match items with
            | none => runEach name (← get).args body depth
            | some words => do
                let items ← List.flatten <$> words.mapM (expandFields depth)
                runEach name items body depth
          redirected 1 redirects action depth
      | .choice word branches redirects =>
          let action : Step Flow := do
            let text ← expandText depth word
            choose text branches depth
          redirected 1 redirects action depth
      | .conditional test thenBody elseBody redirects =>
          let action : Step Flow := do
            match ← watching (execute depth test) with
            | .next =>
                if (← get).status = 0 then execute depth thenBody
                else do
                  modify fun s => { s with status := 0 }
                  execute depth elseBody
            | flow => return flow
          redirected 1 redirects action depth
      | .loop negated test body redirects =>
          redirected 1 redirects (runLoop negated test body 0 depth) depth
      | .function name body => do
          modify fun s => { s with functions := (name, body) :: s.functions, status := 0 }
          return .next
termination_by structural depth _ => depth

/-- Runs a script that changes nothing but files. -/
def isolated (body : Script) : Nat → Step Flow
  | 0 => return .killed boundSignal
  | depth + 1 => do
      let s ← get
      let (flow, inner) := execute depth body { s with output := [] }
      set (s.absorb inner fun _ => true)
      match flow with
      | .killed signal => return .killed signal
      | _ => return .next
termination_by structural depth => depth

/-- Runs a body for each item. -/
def runEach (name : String) (items : List String) (body : Script) : Nat → Step Flow
  | 0 => return .killed boundSignal
  | depth + 1 =>
      match items with
      | [] => return .next
      | item :: rest => do
          modify fun s => s.assign name item
          match Round.ofFlow (← execute depth body) with
          | .again => runEach name rest body depth
          | .leave flow => return flow
termination_by structural depth => depth

/-- Runs a body while a test says so; `last` is the status of the last round. -/
def runLoop (negated : Bool) (test body : Script) (last : Nat) : Nat → Step Flow
  | 0 => return .killed boundSignal
  | depth + 1 => do
      match ← watching (execute depth test) with
      | .next =>
          if decide ((← get).status = 0) = negated then do
            modify fun s => { s with status := last }
            return .next
          else
            match Round.ofFlow (← execute depth body) with
            | .again => runLoop negated test body (← get).status depth
            | .leave flow => return flow
      | flow => return flow
termination_by structural depth => depth

/-- Runs the first branch with a pattern that a text matches. -/
def choose (text : String) (branches : List (List Word × Script)) : Nat → Step Flow
  | 0 => return .killed boundSignal
  | depth + 1 =>
      match branches with
      | [] => do
          modify fun s => { s with status := 0 }
          return .next
      | (patterns, body) :: rest => do
          let fields ← patterns.mapM fun p => joinPieces <$> expandParts depth p
          if fields.any fun f => matchesPattern f text then do
            modify fun s => { s with status := 0 }
            execute depth body
          else choose text rest depth
termination_by structural depth => depth

/-- Runs a simple command. -/
def runSimple (line : Nat) (assignments : List (String × Word)) (words : List Word)
    (redirects : List Redirect) : Nat → Step Flow
  | 0 => return .killed boundSignal
  | depth + 1 => do
      modify fun s => { s with answered := false }
      let fields ← List.flatten <$> words.mapM (expandFields depth)
      let values ← assignments.mapM fun a => (fun v => (a.1, v)) <$> expandText depth a.2
      match fields with
      | [] =>
          let action : Step Flow := do
            modify fun s =>
              { s.assignAll values with status := if s.answered then s.status else 0 }
            return .next
          redirected line redirects action depth
      | name :: args =>
          redirected line redirects (runCommand line values name args depth) depth
termination_by structural depth => depth

/-- Runs a command by its name: one of the shell's own, a function or a program. -/
def runCommand (line : Nat) (values : List (String × String)) (name : String)
    (args : List String) : Nat → Step Flow
  | 0 => return .killed boundSignal
  | depth + 1 => do
      let s ← get
      match s.functions.lookup name with
      | some body => do
          set { s.assignAll values with args, locals := [] }
          let flow ← execute depth body
          modify fun inner => { inner.undeclare with args := s.args, locals := s.locals }
          match flow with
          | .returned => return .next
          | flow => return flow
      | none =>
      match name with
      | "eval" => do
          set (s.assignAll values)
          runText line (" ".intercalate args) depth
      | "." =>
          match s.workspace.readBytes ⟨args.headD ""⟩ with
          | .ok bytes => runText line (Text.Utf8.decodeLossy bytes) depth
          | .error _ => do
              set (s.complain line 2 (".: cannot open " ++ args.headD "" ++ ": No such file"))
              return .exit
      | "exec" =>
          match args with
          | [] => return .next
          | program :: rest => do
              match ← runCommand line values program rest depth with
              | .next => return .exit
              | flow => return flow
      | "command" =>
          match args with
          | ["-v", program] => do
              let known := (builtin? line program []).isSome &&
                (program ∈ ownTools || (tool? program).isNone)
              let shown := if known then some program
                else (searchProgram s s.environment program).map Path.text
              match shown with
              | some text => set { s.write 1 (Text.Utf8.encode (text ++ "\n")) with status := 0 }
              | none => set { s with status := 127 }
              return .next
          | program :: rest => runCommand line values program rest depth
          | [] => return .next
      | _ =>
      match builtin? line name args with
      | some act => do
          let (flow, after) := act s
          set after
          return flow
      | none => do
          runProgram line values name args depth
          return .next
termination_by structural depth => depth

/-- Runs a text as a part of the script. -/
def runText (line : Nat) (text : String) : Nat → Step Flow
  | 0 => return .killed boundSignal
  | depth + 1 =>
      match Script.parse text with
      | some script => execute depth script
      | none => do
          modify fun s => s.complain line 2 "Syntax error: end of file unexpected"
          return .exit
termination_by structural depth => depth

/-- Runs a program as a command of a script. -/
def runProgram (line : Nat) (values : List (String × String)) (name : String)
    (args : List String) : Nat → Step Unit
  | 0 => return
  | depth + 1 => do
      let s ← get
      let environment := values.foldl (fun t v => t.insert v.1 v.2) s.environment
      match searchProgram s environment name with
      | none => set (s.complain line 127 (name ++ ": not found"))
      | some path =>
          let child : State :=
            { workspace := s.workspace, name := path.text, values := environment,
              exported := .ofNames environment.keys, input := s.input }
          match startFile true path args child depth with
          | .error .permissionDenied => set (s.complain line 126 (name ++ ": Permission denied"))
          | .error _ => set (s.complain line 127 (name ++ ": not found"))
          | .ok (flow, ended) => do
              let report := match flow with
                | .killed signal => signalReport signal
                | _ => ""
              set { (s.absorb ended fun _ => true).write 2 (Text.Utf8.encode report) with
                status := codeOf flow ended }
termination_by structural depth => depth

/-- Starts a file as a program in a state of its own.  `inScript` says whether a script starts it,
which takes a file without a first line for a script. -/
def startFile (inScript : Bool) (path : Path) (args : List String) (s : State) :
    Nat → Except IoError (Flow × State)
  | 0 => .ok (.killed boundSignal, s)
  | depth + 1 =>
      match s.workspace.stat path with
      | .error e => .error e
      | .ok .directory => .error .permissionDenied
      | .ok (.file _ false) => .error .permissionDenied
      | .ok (.file contents true) =>
          match programName? contents with
          | some "sh" => .ok (runShell args depth { s with name := "sh" })
          | some "env" =>
              let environment := s.environment.entries.map fun e => e.1 ++ "=" ++ e.2 ++ "\n"
              match args.dropWhile fun a => (Text.splitOnce '=' a).isSome with
              | [] => .ok (.next, s.write 1 (Text.Utf8.encode (String.join environment)))
              | program :: rest =>
                  let values := args.filterMap (Text.splitOnce '=')
                  let change := runProgram 1 (values.take (args.length - rest.length - 1))
                    program rest depth
                  .ok (.next, (change s).2)
          | some "echo" => .ok (.next, s.perform (echoPlain s.workspace args))
          | some tool =>
              match tool? tool with
              | some act => .ok (.next, s.perform (act s.workspace args s.input))
              | none => .error .notAProgram
          | none =>
              match interpreterLine? contents with
              | some (program, more) =>
                  startFile false ⟨program⟩ (more ++ path.text :: args) s depth
              | none =>
                  if inScript then .ok (runShell (path.text :: args) depth s)
                  else .error .notAProgram
termination_by structural depth => depth

/-- Runs the shell with its arguments. -/
def runShell (args : List String) : Nat → Step Flow
  | 0 => return .killed boundSignal
  | depth + 1 => do
      let s ← get
      let ready := s.assign "PWD" ("/" ++ "/".intercalate s.workspace.directory)
      match task? ready args with
      | .ok task => do
          set { ready with name := task.name, args := task.args, failFast := task.failFast }
          runText 1 task.text depth
      | .error message => do
          set (ready.complain 0 2 message)
          return .exit
termination_by structural depth => depth

end

end Drydock.Shell
