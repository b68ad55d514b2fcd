import Reconnect.Application

/-!
# The command line

The program reads the files and variables that the application may ask for, runs it, and writes
what it leaves. No broker can be reached from here, so the demonstration takes place on a network
that is switched off.
-/

namespace Reconnect

/-- The variables that the application may ask for. -/
def variableNames : List String := [
  "RABBITMQ_HOST", "RABBITMQ_PORT", "RABBITMQ_USERNAME", "RABBITMQ_PASSWORD",
  "RABBITMQ_PREFETCH_COUNT", "REDIS_HOST", "REDIS_PORT", "REDIS_PASSWORD", "MONGODB_HOST",
  "MONGODB_PORT", "MONGODB_USERNAME", "MONGODB_PASSWORD"]

/-- Reads what stands at a path into a folder. -/
def readInto (f : Folder) (path : String) : IO Folder := do
  try
    let content ← IO.FS.readBinFile path
    return f.withFile path content.toList
  catch
    | .noFileOrDirectory .. => return f
    | _ => return f.withFolder path

/-- Reads the variables that are set, of those that the application and its file of variables ask
for. -/
def readVariables (f : Folder) : IO Variables := do
  let mut vars : Variables := .empty
  let content := (f.read? Start.variablesFileName).getD []
  for name in variableNames ++ EnvironmentFile.words content do
    if let some value ← IO.getEnv name then
      vars := vars.insert name (Text.utf8 value)
  return vars

end Reconnect

open Reconnect in
def main (arguments : List String) : IO UInt32 := do
  let home := (← IO.getEnv "HOME").getD "."
  let paths := Start.variablesFileName :: settingsPaths home
  let folder ← paths.foldlM readInto (({} : Folder).put [Folder.rootName] .folder)
  let start : Start :=
    { folder, home, environment := ← readVariables folder, network := { offline := true } }
  let run := start.run arguments
  for (path, content) in run.folder.files do
    if folder.read? path != some content then
      IO.FS.writeBinFile path ⟨content.toArray⟩
  IO.print run.printed
  unless run.ending.complaint.isEmpty do IO.eprintln run.ending.complaint
  return UInt32.ofNat (run.ending.code.getD 0)
