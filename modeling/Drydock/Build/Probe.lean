import Drydock.Build.Files
import Drydock.Build.Tools

/-!
# The language standard of the compiler

Before anything is compiled, a test program finds out which flag the compiler needs for C99.  The
answer holds for the whole run: once it is known, it is passed on and not asked again.
-/

namespace Drydock.Build

/-- A program that uses C99, line by line. -/
def testLines : List String := [
  "#include <stdbool.h>",
  "#include <stdint.h>",
  "",
  "#define debug(...) ((void) sizeof(__VA_ARGS__))",
  "",
  "static inline int sum(const int *values, int n)",
  "\x7b",
  "    int total = 0;",
  "    // loop-scoped declaration",
  "    for (int i = 0; i < n; i++) total += values[i];",
  "    return total;",
  "\x7d",
  "",
  "int conftest(void)",
  "\x7b",
  "    int values[] = \x7b [0] = 1, [2] = 3 \x7d;",
  "    bool ok = sum(values, 3) == 4;",
  "    int64_t wide = 1LL << 40;",
  "    debug(wide);",
  "    return ok ? 0 : 1;",
  "\x7d"]

/-- A program that uses C99. -/
def testProgram : String := String.join (testLines.map (· ++ "\n"))

/-- The flags that are tried, in turn. -/
def standardCandidates : List (List String) := [[], ["-std=c99"], ["-std=gnu99"]]

/-- Flags as they are shown in a message. -/
def shownFlags (flags : List String) : String :=
  if flags = [] then "none needed" else " ".intercalate flags

/-- Compiles the test program with each candidate until one succeeds. -/
def tryStandards (t : Toolchain) (cflags : List String) (source output : Path) :
    List (List String) → Build (Option (List String))
  | [] => return none
  | flags :: rest => do
      let command := (t.withStandard flags).compile source output [] cflags
      match ← outcome (capture { command }) with
      | .ok e => if e.success then return some flags
      | .error _ => pure ()
      log .debug "(ignoring errors from test probes)"
      tryStandards t cflags source output rest

/-- A name in a directory that is not taken. -/
def freshName (w : Workspace) (dir : Path) : Nat → Nat → String
  | 0, n => "c99-probe" ++ toString n
  | tries + 1, n =>
      let name := "c99-probe" ++ toString n
      if w.exists (dir.join ⟨name⟩) then freshName w dir tries (n + 1) else name

/-- Makes a new directory for the test program. -/
def makeProbeDirectory (scratch : Path) : Build Path := do
  let m ← machine
  let parent := if scratch.isAbsolute then scratch else m.directoryPath.join scratch
  let dir := parent.join ⟨freshName m.workspace parent m.workspace.tree.entries.length 0⟩
  during (.makingProbeDirectory scratch) (change fun w => w.makeDirectory dir)
  return dir

/-- Removes a directory with everything below it. -/
def removeDirectory (dir : Path) : Build Unit := fun _ m =>
  match m.workspace.locate dir with
  | .ok l => (.ok (), m.withTree (m.workspace.tree.eraseBelow l))
  | .error _ => (.ok (), m)

/-- Finds the flags with the test program in `dir`. -/
def probeIn (dir : Path) (t : Toolchain) (cflags : List String) : Build (List String) := do
  let source := dir.join ⟨"conftest_cstd.c"⟩
  writeText source testProgram
  log .info ("checking for " ++ t.program ++ " option to enable C99 features...")
  match ← tryStandards t cflags source (dir.join ⟨"conftest_cstd.o"⟩) standardCandidates with
  | some flags =>
      log .info (t.program ++ " option to enable C99 features: " ++ shownFlags flags)
      return flags
  | none =>
      log .error (t.program ++ " cannot compile C99 source code")
      return []

/-- Finds the flags that the compiler needs for C99; where no candidate works there are none.  The
directory of the test program does not outlive the search. -/
def probe (t : Toolchain) (cflags : List String) (scratch : Path) : Build (List String) := do
  ensureDirectory scratch
  let dir ← makeProbeDirectory scratch
  let found ← outcome (probeIn dir t cflags)
  removeDirectory dir
  ofExcept found

/-- The flags for C99, which are searched only where they are not yet known. -/
def standardFlags (known : Option (List String)) (t : Toolchain) (cflags : List String)
    (scratch : Path) : Build (List String) :=
  match known with
  | some flags => return flags
  | none => probe t cflags scratch

end Drydock.Build
