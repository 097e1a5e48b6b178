import Drydock.Flags
import Drydock.Path

/-!
# Compile and link commands

A `Command` is a program with its arguments, a value that can be shown before anything runs.  A
`Toolchain` is a C compiler driver; it makes the command that compiles one source and the command
that links a shared object.

`objectPath` places the object of a source in the directory of its module.
-/

namespace Drydock

/-- A program and its arguments. -/
structure Command where
  program : String
  args : List String
  deriving DecidableEq, Inhabited, Repr

/-- The command on one line. -/
def Command.text (c : Command) : String := " ".intercalate (c.program :: c.args)

/-- A C compiler driver. -/
structure Toolchain where
  program : String
  /-- Arguments that belong to the compiler itself, such as those of a launcher. -/
  programArgs : List String := []
  /-- Flags that select a shared link. -/
  sharedFlags : List String := []
  /-- Flags that select the language standard. -/
  standardFlags : List String := []
  deriving DecidableEq, Inhabited, Repr

namespace Toolchain

/-- Reads a compiler command line, which may carry a launcher or flags; an empty one means `cc`. -/
def ofCommandLine (cc : String) (sharedFlags : List String) : Toolchain :=
  match Flags.split cc with
  | [] => { program := "cc", sharedFlags }
  | program :: programArgs => { program, programArgs, sharedFlags }

/-- Selects the language standard of every compile. -/
def withStandard (t : Toolchain) (flags : List String) : Toolchain :=
  { t with standardFlags := flags }

/-- The command that compiles `source` to `output`. -/
def compile (t : Toolchain) (source output : Path) (cppflags cflags : List String) : Command where
  program := t.program
  args :=
    t.programArgs ++ t.standardFlags ++ cppflags ++ cflags ++ ["-c", source.text, "-o", output.text]

/-- The command that links a shared object.  Objects stand before libraries, so that every
reference is resolved. -/
def link (t : Toolchain) (objects extraObjects : List Path) (output : Path)
    (ldflags libs : List String) : Command where
  program := t.program
  args :=
    t.programArgs ++ t.sharedFlags ++ (objects ++ extraObjects).map Path.text ++ ldflags ++ libs ++
      ["-o", output.text]

end Toolchain

/-- The names that keep the directories of a source: `..` is spelled `__`, and a root or a leading
`.` is dropped. -/
def objectNames (source : List Component) : List String :=
  source.filterMap fun
    | .name s => some s
    | .up => some "__"
    | .root | .here => none

/-- Replaces the extension of a file name by `.o`. -/
def objectFile (name : String) : String := .ofList (Path.fileStem name.toList ++ ['.', 'o'])

/-- The names of an object below its module's directory; a source without names becomes `out.o`. -/
def objectTail (names : List String) : List String :=
  match names.reverse with
  | [] => ["out.o"]
  | last :: parents => (objectFile last :: parents).reverse

/-- The object of `source` in `dir`.  The directories of the source below `root` are kept, so that
sources of one name in two directories have two objects; a source outside `root` keeps its whole
path. -/
def objectPath (dir root source : Path) : Path :=
  let names := (Path.stripComponents? root.components source.components).getD source.components
  dir.join ⟨"/".intercalate (objectTail (objectNames names))⟩

end Drydock
