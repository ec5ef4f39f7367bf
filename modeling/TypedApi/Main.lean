import TypedApi.Command.Run
/-!
The program.

The part of the machine that a command can see is read into a workspace, the
command runs on that, and what it made is written back. The program has no
network of its own, so every address refuses the connection.
-/

set_option autoImplicit false

namespace TypedApi.Program

open Workspace (Content Place)

/-- The environment variables that matter. -/
def variableNames : List String :=
  ["HOME", "XDG_CONFIG_HOME", "XDG_CACHE_HOME", "XDG_DATA_HOME", "APIMODEL_BOUNDED_INTEGERS",
   "APIMODEL_FETCH_DOCS", "APIMODEL_EMIT_DOCS"]

/-- The values of the environment variables that are set. -/
def readEnvironment : IO (Table String) := do
  let mut table : Table String := []
  for name in variableNames do
    if let some value ← IO.getEnv name then
      table := table.insert name value
  return table

/-- Whether there is a folder at a place. -/
def folderExists (place : String) : IO Bool := do
  try
    let path ← IO.FS.realPath place
    path.isDir
  catch _ => return false

/-- The content of the file at a place, if there is one. -/
def readContent? (place : String) : IO (Option Content) := do
  try
    return some (.ofBytes (← IO.FS.readBinFile place))
  catch _ => return none

/-- The places on the way to a place, the last one left out. -/
def placesAbove (place : Place) : List Place :=
  (List.range place.length).map place.take

/-- Read the file at a path and the folders on the way to it into a workspace. -/
def look (w : Workspace) (p : Workspace.Path) : IO Workspace := do
  let place := w.start p ++ p.names
  let mut w := w
  for above in placesAbove place ++ [place] do
    if !w.isFolder above && (← folderExists above.text) then
      w := { w with folders := w.folders ++ [above.text] }
  match ← readContent? place.text with
  | some content => return { w with files := w.files.insert place.text content }
  | none => return w

/-- Whether a line may read the standard input. -/
def mayRead (args : List String) : Bool :=
  args.contains "-" || args.contains "reset"

/-- The name of the operating system, as far as the directories depend on it. -/
def platform : IO String := do
  if ← folderExists "/proc" then return "Linux" else return "other"

/-- The file that a line wants its data in. -/
def targetOf (args : List String) : List String :=
  match Command.Topic.program.read args with
  | .ok a => (Command.consoleChoice a).target.toList
  | .error _ => []

/-- The workspace for a line: the settings, and all that its arguments may name. -/
def gather (args : List String) : IO Workspace := do
  let here := Workspace.Path.ofText (← IO.currentDir).toString
  let w : Workspace := {
    workingDirectory := here.names
    environment := ← readEnvironment
    platform := ← platform
    input := ← if mayRead args then (← IO.getStdin).readToEnd else pure ""
    timestamp := toString (← IO.monoNanosNow) }
  let directories := [Directory.config, .cache, .data].map fun d => d.path w
  let paths := directories ++ [Settings.storedPath w, Settings.projectPath] ++
    (targetOf args ++ args).map Workspace.Path.ofText
  paths.foldlM look w

/-- Write back what a command made. -/
def writeBack (before after : Workspace) : IO Unit := do
  for folder in after.folders do
    if !before.folders.contains folder then
      IO.FS.createDirAll folder
  for (place, content) in after.files do
    let same := ((before.files.get? place).map Content.toBytes) == some content.toBytes
    if !same then
      IO.FS.writeBinFile place content.toBytes

end TypedApi.Program

open TypedApi in
/-- Run the program. -/
def main (args : List String) : IO UInt32 := do
  let before ← Program.gather args
  let (code, session) := Command.run args before
  Program.writeBack before session.workspace
  (← IO.getStdout).putStr session.output
  (← IO.getStderr).putStr session.errors
  return code.toUInt32
