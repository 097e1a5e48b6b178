import Drydock.Module
import Drydock.Platform

/-!
# Compiler flags of a module

`CompilerFlags.merge` merges the environment, the platform and a module into the flags of its
compile and link commands.  In every list the platform stands first, the environment behind it and
the module last, so that what comes later wins on a command line.
-/

namespace Drydock

/-- The compiler and the flag lists of one module. -/
structure CompilerFlags where
  cc : String
  cppflags : List String
  cflags : List String
  ldflags : List String
  libs : List String
  deriving DecidableEq, Inhabited, Repr

namespace CompilerFlags

/-- Merges environment, platform and module. -/
def merge (tools : ToolVariables) (defaults : CompilerDefaults) (m : Module) : CompilerFlags where
  cc := (tools.cc.or defaults.cc).getD "gcc"
  cppflags :=
    Flags.splitOption tools.cppflags ++ m.includeDirs.map (fun dir => "-I" ++ dir.text) ++
      m.defines.map Define.flag ++ m.undefines.map ("-U" ++ ·)
  cflags :=
    Flags.splitOption defaults.cflags ++ Flags.splitOption tools.cflags ++
      Flags.splitOption defaults.ccshared ++ m.compileArgs
  ldflags :=
    Flags.splitOption defaults.ldflags ++ Flags.splitOption tools.ldflags ++
      Flags.splitOption tools.cflags ++ m.libraryDirs.map (fun dir => "-L" ++ dir.text) ++
      m.linkArgs
  libs := m.libraries.map ("-l" ++ ·)

/-- The variables of a module with their values as text. -/
def assignments (f : CompilerFlags) : List (String × String) :=
  [("CC", f.cc), ("CPPFLAGS", Flags.render f.cppflags), ("CFLAGS", Flags.render f.cflags),
    ("LDFLAGS", Flags.render f.ldflags), ("LIBS", Flags.render f.libs)]

end CompilerFlags

end Drydock
