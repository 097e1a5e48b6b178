import Drydock.Build
import Drydock.Text.Utf8

/-!
# Starting tools

A tool is run with its output captured, or shown on the terminal.  The checked forms turn an end
without success into a failure that shows the command and, where it was captured, what the tool
wrote to its error stream.
-/

namespace Drydock.Build

/-- Runs a tool and captures its output. -/
def capture (i : Invocation) : Build Exit := during (.spawning i.command.program) (launch i false)

/-- Runs a tool, captures its output and requires success. -/
def runChecked (i : Invocation) : Build Exit := do
  let e ← capture i
  if e.success then return e
  fail (Cause.toolFailed i.command.text e.code (some (Text.Utf8.decodeLossy e.stderr)))

/-- Runs a tool on the terminal and requires success. -/
def showChecked (i : Invocation) : Build Unit := do
  let e ← during (.executing i.command.program) (launch i true)
  if e.success then return
  fail (Cause.toolFailed i.command.text e.code none)

end Drydock.Build
