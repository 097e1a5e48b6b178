import Drydock.Module
import Drydock.Toolchain

/-!
# Building the vendored library

A `LibraryMake` describes the make run that builds the static archive of the vendored library and
the files that show that it is built.
-/

namespace Drydock

/-- The make run that builds the archive of the vendored library. -/
structure LibraryMake where
  dir : Path
  make : String
  target : String
  archive : Path
  /-- Objects that have to exist besides the archive. -/
  objects : List Path := []
  deriving DecidableEq, Repr

namespace LibraryMake

/-- The value of `ALL_CPPFLAGS`: the library's own directory, the flags and definitions of the
module that carries it, and the flags the library chooses itself. -/
def cppflags (compileArgs : List String) (defines : List Define) : String :=
  " ".intercalate (["-I."] ++ compileArgs ++ defines.map Define.flag ++ ["$(CPPFLAGS)"])

/-- The make command. -/
def command (b : LibraryMake) (compileArgs : List String) (defines : List Define) : Command where
  program := b.make
  args := ["ALL_CPPFLAGS=" ++ cppflags compileArgs defines, b.target]

/-- The files that exist when the library is built. -/
def artifacts (b : LibraryMake) : List Path := b.archive :: b.objects

end LibraryMake

end Drydock
