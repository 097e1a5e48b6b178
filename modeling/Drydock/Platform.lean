import Drydock.Flags
import Drydock.Settings

/-!
# Target platforms and their compiler

A `Platform` is a family of object formats; it decides how modules find each other when they are
loaded.  `CompilerDefaults` are the compiler settings a host comes with, which a manifest may
replace one by one.

`configureVariables` merges them with the environment into the variables that the vendored
configure script sees.
-/

namespace Drydock

/-- A family of object formats. -/
inductive Platform where
  | elf
  | darwin
  deriving DecidableEq, Inhabited, Repr

namespace Platform

/-- The word for a platform in plans. -/
def word : Platform → String
  | elf => "elf"
  | darwin => "darwin"

/-- Link arguments by which a module finds its siblings in the directory it is installed into. -/
def loaderArgs (platform : Platform) (file : String) : List String :=
  match platform with
  | elf => ["-Wl,-rpath,$ORIGIN"]
  | darwin =>
      ["-dynamiclib", "-rpath", "@loader_path", "-Wl,-headerpad_max_install_names",
        "-Wl,-install_name,@rpath/" ++ file, "-Wl,-x"]

end Platform

/-- Compiler settings that replace those of the host where they are given. -/
structure CompilerOverrides where
  cc : Option String := none
  cflags : Option String := none
  ccshared : Option String := none
  ldflags : Option String := none
  ldshared : Option String := none
  deriving DecidableEq, Inhabited, Repr

/-- The compiler settings of a host. -/
structure CompilerDefaults where
  platform : Platform
  cc : Option String := none
  cflags : Option String := none
  /-- The flags for position-independent code. -/
  ccshared : Option String := none
  ldflags : Option String := none
  /-- The flags that select a shared link. -/
  ldshared : Option String := none
  deriving DecidableEq, Inhabited, Repr

namespace CompilerDefaults

/-- The settings a platform comes with. -/
def ofPlatform : Platform → CompilerDefaults
  | .darwin =>
      { platform := .darwin
        cc := some "clang"
        cflags := some "-O2 -Wall"
        ccshared := some "-fPIC"
        ldshared := some "-bundle -undefined dynamic_lookup" }
  | .elf =>
      { platform := .elf
        cc := some "cc"
        cflags := some "-O2 -Wall"
        ccshared := some "-fPIC"
        ldshared := some "-shared" }

/-- A platform without settings. -/
def none (platform : Platform) : CompilerDefaults := { platform }

/-- Replaces the settings that are given. -/
def override (d : CompilerDefaults) (o : CompilerOverrides) : CompilerDefaults :=
  { d with
    cc := o.cc.or d.cc
    cflags := o.cflags.or d.cflags
    ccshared := o.ccshared.or d.ccshared
    ldflags := o.ldflags.or d.ldflags
    ldshared := o.ldshared.or d.ldshared }

/-- A setting by the name of its variable. -/
def get? (d : CompilerDefaults) (name : String) : Option String :=
  if name = "CC" then d.cc
  else if name = "CFLAGS" then d.cflags
  else if name = "CCSHARED" then d.ccshared
  else if name = "LDFLAGS" then d.ldflags
  else if name = "LDSHARED" then d.ldshared
  else Option.none

/-- The flags that select a shared link.  On Darwin `-bundle` is dropped, because modules are
libraries that other modules link against. -/
def sharedLinkFlags (d : CompilerDefaults) : List String :=
  let flags := Flags.splitOption d.ldshared
  match d.platform with
  | .darwin => flags.filter (· ≠ "-bundle")
  | .elf => flags

end CompilerDefaults

/-- Where a variable's value comes from. -/
inductive VariableOrigin where
  | environment
  | platform
  deriving DecidableEq, Repr

/-- The word for an origin. -/
def VariableOrigin.word : VariableOrigin → String
  | environment => "env"
  | platform => "platform"

/-- A variable for the configure script. -/
structure ConfigureVariable where
  name : String
  value : String
  origin : VariableOrigin
  deriving DecidableEq, Repr

/-- The value of a variable and its origin: the environment goes before the platform. -/
def ConfigureVariable.choose (tools : ToolVariables) (defaults : CompilerDefaults)
    (name : String) : Option ConfigureVariable :=
  match tools.get? name, defaults.get? name with
  | some value, _ => some ⟨name, value, .environment⟩
  | none, some value => some ⟨name, value, .platform⟩
  | none, none => none

/-- Appends the flags for position-independent code to `CFLAGS`, so that the objects can go into a
shared module. -/
def ConfigureVariable.withShared (defaults : CompilerDefaults) (v : ConfigureVariable) :
    ConfigureVariable :=
  match defaults.ccshared with
  | some ccshared => if v.name = "CFLAGS" then { v with value := v.value ++ " " ++ ccshared } else v
  | none => v

/-- The variables `CC`, `CFLAGS` and `LDFLAGS` as the configure script sees them; one that neither
the environment nor the platform sets is left out. -/
def configureVariables (tools : ToolVariables) (defaults : CompilerDefaults) :
    List ConfigureVariable :=
  ["CC", "CFLAGS", "LDFLAGS"].filterMap fun name =>
    (ConfigureVariable.choose tools defaults name).map (·.withShared defaults)

end Drydock
