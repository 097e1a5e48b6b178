import Drydock.FileTree.Access
import Drydock.Table
import Drydock.Toolchain

/-!
# The machine a run acts on

A run reads and changes files, starts programs and reports what it does.  A `Machine` holds all of
this: the file tree, the environment, and the events so far, in their order.

What programs do is not part of the run.  A `Launcher` decides it, and may look at everything that
happened before; statements about a run hold for every launcher.
-/

namespace Drydock

/-- How important a message is. -/
inductive Level where
  | trace
  | debug
  | info
  | warn
  | error
  deriving DecidableEq, Repr

/-- A command with the directory and the variables it is started with. -/
structure Invocation where
  command : Command
  /-- The working directory, if it is not that of the run. -/
  directory : Option Path := none
  /-- Variables that are set on top of the environment of the run. -/
  overlay : Table String := .empty
  deriving DecidableEq

/-- How a program ended: by a code, or killed. -/
structure Exit where
  code : Option Nat
  stdout : Bytes := []
  stderr : Bytes := []
  deriving DecidableEq, Inhabited, Repr

/-- Whether a program ended well. -/
def Exit.success (e : Exit) : Bool := e.code = some 0

/-- Something that happened in a run. -/
inductive Event where
  | log (level : Level) (message : String)
  /-- A program was started, or could not be.  `shown` says whether it wrote to the terminal
  instead of to the run. -/
  | ran (invocation : Invocation) (result : Except IoError Exit) (shown : Bool)

/-- Files, environment and history of a run. -/
structure Machine where
  workspace : Workspace
  environment : Table String := .empty
  events : List Event := []

/-- What a program does: how it ends, and the file tree it leaves. -/
abbrev Launcher := Machine → Invocation → Except IoError Exit × FileTree

namespace Machine

/-- The working directory as a path. -/
def directoryPath (m : Machine) : Path := ⟨"/" ++ "/".intercalate m.workspace.directory⟩

/-- Appends an event. -/
def note (m : Machine) (e : Event) : Machine := { m with events := m.events ++ [e] }

/-- Replaces the file tree. -/
def withTree (m : Machine) (t : FileTree) : Machine :=
  { m with workspace := { m.workspace with tree := t } }

/-! ## Programs -/

/-- Whether a path leads to a program. -/
def isProgram (w : Workspace) (p : Path) : Bool :=
  match w.stat p with
  | .ok (.file _ executable) => executable
  | _ => false

/-- The directories of a search path. -/
def searchDirs (environment : Table String) : List Path :=
  match environment.get? "PATH" with
  | some dirs => (Text.splitChars ':' dirs.toList).map fun dir => ⟨.ofList dir⟩
  | none => []

/-- A path made absolute; a leading `.` is dropped. -/
def absolute (m : Machine) (p : Path) : Path :=
  if p.isAbsolute then p
  else
    p.components.foldl
      (fun dir c =>
        match c with
        | .name s => dir.join ⟨s⟩
        | .up => dir.join ⟨".."⟩
        | .root | .here => dir)
      m.directoryPath

/-- Finds a program: a name on the search path, a path of several components from the working
directory. -/
def findProgram (m : Machine) (name : String) : Option Path :=
  let candidates :=
    if 1 < (Path.mk name).components.length then [m.absolute ⟨name⟩]
    else (searchDirs m.environment).map fun dir => dir.join ⟨name⟩
  candidates.find? (isProgram m.workspace)

end Machine

end Drydock
