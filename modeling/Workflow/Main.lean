import Workflow.Command.Basic

/-!
The command line on the files of the system.
-/

namespace Workflow

def systemFiles : FileAccess IO where
  read path := do
    match ← (IO.FS.readFile path).toBaseIO with
    | .ok text => pure (some text)
    | .error _ => pure none
  write path text := do
    match ← (IO.FS.writeFile path text).toBaseIO with
    | .ok _ => pure true
    | .error _ => pure false

/-- Those of some environment variables that are set. -/
def environment (names : List String) : IO (Table String) := do
  let found ← names.filterMapM fun name => do return (← IO.getEnv name).map fun v => (name, v)
  return Table.ofList found

end Workflow

open Workflow in
def main (args : List String) : IO UInt32 := do
  let env ← environment ["WEAVE_CACHE_CAPACITY", "WEAVE_SOURCE_COMMENTS"]
  let result ← Command.runLine systemFiles env args
  IO.print result.out
  IO.eprint result.err
  return result.code.toUInt32
