import Drydock.Shell.Interpreter

/-!
# Starting programs of the file tree

`installTools` places the programs of the system in a tree, and `launch` is a launcher that starts
whatever file of the tree a command names.  What it does follows from the tree, the environment and
the command alone.
-/

namespace Drydock.Shell

/-- The bound on the depth of nested steps. -/
def stepBound : Nat := 100000

/-- The directories that hold the programs of the system. -/
def toolDirs : List Location := [["usr", "bin"], ["bin"]]

/-- The search path of the system. -/
def systemPath : String := "/usr/local/sbin:/usr/local/bin:/usr/sbin:/usr/bin:/sbin:/bin"

/-- Places the programs of the system in a tree. -/
def installTools (t : FileTree) : FileTree :=
  let dirs : List Location := [["usr"], ["usr", "bin"], ["bin"]]
  let withDirs := dirs.foldl (fun t dir => t.set dir .directory) t
  toolDirs.foldl
    (fun t dir =>
      (["sh", "env"] ++ toolNames).foldl
        (fun t name => t.set (dir ++ [name]) (.file (programBytes name) true)) t)
    withDirs

/-- Whether a text may be passed to a program. -/
def isPassable (s : String) : Bool := '\x00' ∉ s.toList

/-- Moves to the directory of an invocation. -/
def enter (w : Workspace) (directory : Option Path) : Except IoError Workspace := do
  match directory with
  | none => return w
  | some dir =>
      let l ← w.locate dir
      if w.tree.isDirectoryAt l then return { w with directory := l } else throw .notADirectory

/-- The error of a program: the first one that is not about a missing file. -/
def firstRefusal (errors : List IoError) : IoError :=
  (errors.find? fun e => e = .permissionDenied).getD .notFound

/-- Starts the first program of a list that is there. -/
def startFirst (args : List String) (s : State) (refused : List IoError) :
    List Path → Except IoError (Flow × State)
  | [] => .error (firstRefusal refused)
  | path :: rest =>
      match startFile false path args { s with name := path.text } stepBound with
      | .error .notFound => startFirst args s (refused ++ [.notFound]) rest
      | .error .notADirectory => startFirst args s (refused ++ [.notADirectory]) rest
      | .error .permissionDenied => startFirst args s (refused ++ [.permissionDenied]) rest
      | result => result

/-- The files that a program's name may mean, in the order in which they are tried. -/
def candidates (environment : Table String) (name : String) : List Path :=
  (Machine.searchDirs environment).map fun dir => dir.join ⟨name⟩

/-- Starts the program of an invocation. -/
def start (m : Machine) (i : Invocation) : Except IoError (Flow × State) := do
  let environment := i.overlay.entries.foldl (fun t e => t.insert e.1 e.2) m.environment
  let texts := i.command.program :: i.command.args ++
    i.overlay.entries.flatMap (fun e => [e.1, e.2]) ++ (i.directory.map Path.text).toList
  if !texts.all isPassable then throw .nulInArgument
  let w ← enter m.workspace i.directory
  let s : State :=
    { workspace := w, name := i.command.program, values := environment,
      exported := .ofNames environment.keys }
  let name := i.command.program
  if name = "" then throw .notFound
  else if '/' ∈ name.toList then startFile false ⟨name⟩ i.command.args s stepBound
  else startFirst i.command.args s [] (candidates environment name)

/-- Starts programs of the file tree. -/
def launch : Launcher := fun m i =>
  match start m i with
  | .error e => (.error e, m.workspace.tree)
  | .ok (flow, s) =>
      let code := match flow with
        | .killed _ => none
        | _ => some (s.status % 256)
      (.ok { code, stdout := s.written 1, stderr := s.written 2 }, s.workspace.tree)

end Drydock.Shell
