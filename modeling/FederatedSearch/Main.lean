import FederatedSearch.Command.Basic

/-!
# The program

Reads files and the time for the commands, and prints what they give.
-/

namespace FederatedSearch

/-- The number of groups in a search unless the settings say otherwise. -/
def defaultConcurrency : Nat := 4

/-- The files and the time of the machine. -/
def machine : Surroundings IO where
  fileText path := do
    try return some (← IO.FS.readFile path)
    catch _ => return none
  clock := return (← IO.monoNanosNow) / 1000
  concurrency := defaultConcurrency

end FederatedSearch

def main (arguments : List String) : IO UInt32 := do
  let printout ← FederatedSearch.CommandLine.executeArguments FederatedSearch.machine arguments
  IO.print printout.output
  IO.eprint printout.errors
  return UInt32.ofNat printout.code
