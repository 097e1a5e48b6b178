import Drydock.Build
import Drydock.ConfigHeader
import Drydock.ConfigValues
import Drydock.Glob

/-!
# Files that a run reads and writes

Every operation names the file in its failure.  Writing a file makes the directories above it.
-/

namespace Drydock.Build

/-- Makes a directory and those above it, unless something is already there. -/
def ensureDirectory (p : Path) : Build Unit := do
  if !(← workspace).exists p then
    during (.creatingDirectory p) (changeAsFar fun w => w.makeDirectories p)

/-- The text of a file. -/
def readText (p : Path) : Build String := during (.reading p) (inspect fun w => w.readText p)

/-- Makes the directory that a file stands in. -/
def ensureParent (p : Path) : Build Unit :=
  match p.parent? with
  | some parent => if parent.text = "" then return else ensureDirectory parent
  | none => return

/-- Writes a text to a file. -/
def writeText (p : Path) (text : String) : Build Unit := do
  ensureParent p
  during (.writing p) (change fun w => w.write p (Text.Utf8.encode text))

/-- Removes files one after the other. -/
def removeAll (files : List Path) : Build Unit :=
  files.forM fun p => during (.removing p) (change fun w => w.remove p)

/-- Removes the files that match some of the patterns, and returns them. -/
def removeMatching (base : Path) (patterns : List String) : Build (List Path) := do
  let files ← ofExcept (Glob.files (← workspace) base patterns)
  removeAll files
  return files

/-! ## Headers and records -/

/-- Writes a configuration header. -/
def writeHeader (h : ConfigHeader) (p : Path) : Build Unit := do
  log .info ("creating " ++ p.text)
  writeText p h.render

/-- Writes the header that stands in for a missing one. -/
def writeMinimalHeader (p : Path) : Build Unit := do
  log .info ("creating minimal " ++ p.text)
  writeText p ConfigHeader.minimal

/-- Writes the minimal header for every path at which nothing stands, and returns those paths. -/
def ensureHeaders : List Path → Build (List Path)
  | [] => return []
  | p :: rest => do
      if (← workspace).exists p then ensureHeaders rest
      else
        writeMinimalHeader p
        return p :: (← ensureHeaders rest)

/-- The definitions of a header. -/
def readDefines (p : Path) : Build (Table String) := return definesOf (← readText p)

/-- Writes the config-values file. -/
def writeConfigValues (v : ConfigValues) (p : Path) : Build Unit := do
  logAll .info (v.features.map fun (name, value) => "config option: " ++ name ++ "=" ++ value)
  writeText p v.render

end Drydock.Build
