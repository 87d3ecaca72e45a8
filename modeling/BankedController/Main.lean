import BankedController.CommandLine

namespace BankedController.CommandLine

def valueOf? (name : String) : IO (Option (String × String)) := do
  let value ← IO.getEnv name
  pure (value.map fun v => (name, v))

def file? (path : String) : IO (Option (String × String)) := do
  try
    let text ← IO.FS.readFile path
    pure (some (path, text))
  catch _ => pure none

end BankedController.CommandLine

open BankedController

def main : IO UInt32 := do
  let names := [Settings.configVariable, Settings.scriptVariable, Settings.passesVariable]
  let given ← names.filterMapM CommandLine.valueOf?
  let paths := (given.filter fun v => v.1 ≠ Settings.passesVariable).map (·.2)
  let files ← paths.filterMapM CommandLine.file?
  let result := CommandLine.run (fun name => given.lookup name)
    (fun path => files.lookup path)
  IO.print result.output
  IO.eprint result.errors
  pure result.code
