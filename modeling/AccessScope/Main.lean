import AccessScope.CommandLine

/-!
# The program

Reads what a run depends on, runs it and prints the outcome.
-/

open AccessScope

/-- The text of a file, if there is one and it is valid. -/
def readTextFile (path : String) : IO (Option String) := do
  try
    return String.fromUTF8? (← IO.FS.readBinFile path)
  catch _ =>
    return none

def main (arguments : List String) : IO UInt32 := do
  let names :=
    ["RESOURCE_ACCESS_AUTHORIZED_ACL_GROUP", "LOG_FORMAT", "METRICS_ENABLED", "SERVICE_NAME"]
  let environment ← names.filterMapM fun name => do
    return (← IO.getEnv name).map (name, ·)
  let path? := match CommandLine.Command.ofArguments arguments with
    | .ok command => command.path?
    | .error _ => none
  let content ← match path? with
    | some path => readTextFile path
    | none => pure none
  let outcome := CommandLine.run arguments (environment.lookup ·) fun _ => content
  IO.print outcome.output
  if let some complaint := outcome.complaint then
    IO.eprintln complaint
  return outcome.exit.toUInt32
