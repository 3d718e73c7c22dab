import Toolpath.Demo
import Toolpath.Decimal
import Toolpath.Double.Scalar

/-!
The command line of the demo: reads the file that is asked for, and prints the outcome.
-/

set_option autoImplicit false
set_option relaxedAutoImplicit false

namespace Toolpath.Demo

/-- The text of the file that the arguments name, if there is one that can be read. -/
def cellText (arguments : List String) : IO (Option String) := do
  match Invocation.ofArguments arguments with
  | .run { cell := some path, .. } =>
    try return some (← IO.FS.readFile path)
    catch _ => return none
  | _ => return none

end Toolpath.Demo

def main (arguments : List String) : IO UInt32 := do
  let text ← Toolpath.Demo.cellText arguments
  let outcome := Toolpath.Demo.outcome Float (fun _ ↦ text) arguments
  for line in outcome.output do
    IO.println line
  for line in outcome.complaints do
    IO.eprintln line
  return outcome.status.toUInt32
