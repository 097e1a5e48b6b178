import Drydock.Build.Tools
import Drydock.Symbols

/-!
# Checking the symbols of built modules

The symbols of a module are listed by a tool in the portable format; `verify` checks the listings of
all modules and reports what it finds.
-/

namespace Drydock.Build

/-- The program of a symbol tool: the one that is found, or the name as it is. -/
def symbolTool (m : Machine) (nm : String) : String :=
  ((m.findProgram nm).map Path.text).getD nm

/-- The symbols of a built file. -/
def listSymbols (tool : String) (platform : Platform) (artifact : Path) : Build SymbolTable := do
  let e ← during (.listingSymbols artifact)
    (runChecked { command := ⟨tool, ["-g", "-P", artifact.text]⟩ })
  return symbolsOf (Text.Utf8.decodeLossy e.stdout) platform

/-- The symbols of a built file, or why they cannot be read. -/
def symbolsOrReason (tool : String) (platform : Platform) (artifact : Path) :
    Build (Except String SymbolTable) := do
  return (← outcome (listSymbols tool platform artifact)).mapError Failure.message

/-- Reports the outcome of a check. -/
def logCheck : Except (List SymbolConflict) SymbolCheck → Build Unit
  | .ok (.skipped (.mode mode)) =>
      log .info ("skipping symbol collision check (" ++ mode.word ++ " mode)")
  | .ok (.skipped (.unreadable message)) =>
      log .warn ("skipping symbol collision check (invoking nm failed: " ++ message ++ ")")
  | .ok (.clean symbols) => log .debug (toString symbols ++ " exported symbols, no conflicts")
  | .error conflicts => logAll .error (conflicts.map SymbolConflict.text)

/-- Checks the symbols of built modules; conflicts are a failure. -/
def verify (mode : LinkMode) (nm : String) (platform : Platform) (modules : List BuiltModule)
    (ignored : List String) : Build SymbolCheck := do
  let tool := symbolTool (← machine) nm
  let result ← checkSymbols mode (symbolsOrReason tool platform) modules ignored
  logCheck result
  ofExcept (result.mapError fun conflicts => { cause := .conflicts conflicts })

end Drydock.Build
