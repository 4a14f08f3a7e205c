import ScriptHost.CommandLine
import ScriptHost.Project.Watching
import Std.Time.DateTime.Timestamp
/-!
# The program

Reads a project's directory into a file tree, lets the library do what the command line asks
for, prints what comes of it at its time, and makes the directories that the library added to
the tree. A running project looks at its directory again at short intervals.
-/
namespace ScriptHost.Console

/-- The contents of a file, if there is one. -/
def readFile? (path : String) : IO (Option ByteArray) := do
  try return some (← IO.FS.readBinFile path)
  catch
    | .noFileOrDirectory .. => return none
    | error => throw error

/-- The files right inside a directory, if there is one. -/
def readDirectory? (path : String) : IO (Option FileNode) := do
  let place ← IO.FS.realPath path
  unless ← place.isDir do return none
  let mut entries := #[]
  for entry in ← place.readDir do
    if isConfigName entry.fileName then
      if let .file := (← entry.path.symlinkMetadata).type then
        if let some content ← readFile? (path ++ "/" ++ entry.fileName) then
          entries := entries.push (entry.fileName, FileNode.file content)
  return some (.directory entries.toList)

/-- The project in a directory as a tree. -/
def readTree (root : String) : IO FileTree := do
  let settings := (← readFile? (root ++ "/" ++ settingsFile)).map FileNode.file
  let handlers ← readDirectory? (root ++ "/" ++ handlersDirectory)
  let schedules ← readDirectory? (root ++ "/" ++ schedulesDirectory)
  let named (name : String) (node : Option FileNode) : List (String × FileNode) :=
    (node.map fun node => (name, node)).toList
  return .directory (named settingsFile settings ++ named handlersDirectory handlers ++
    named schedulesDirectory schedules)

/-- Makes the directories of a tree. -/
def makeDirectories (root : String) (tree : FileTree) : IO Unit := do
  for directory in [handlersDirectory, schedulesDirectory] do
    if tree.contains directory then IO.FS.createDirAll (root ++ "/" ++ directory)

/-- Waits for a number of milliseconds. -/
partial def pause (milliseconds : Nat) : IO Unit := do
  let step := min milliseconds 1000000
  IO.sleep step.toUInt32
  if step < milliseconds then pause (milliseconds - step)

def play (output : Array Output) : IO Unit := do
  for step in output do
    match step with
    | .line text => IO.println text
    | .pause milliseconds => pause milliseconds.toNat

/-- Lets a project go on until the program is stopped. -/
partial def keepRunning (root : String) (watch : Bool) (start : Nat) (tree : FileTree)
    (project : Project) : IO Unit := do
  let (project, lines) := project.moveTo ((← IO.monoMsNow) - start)
  for line in lines do IO.println line.text
  let mut tree := tree
  let mut project := project
  if watch then
    let present ← try readTree root catch _ => pure tree
    for change in FileChange.between tree present do
      project := ((project.applyChange change).run present).1
    tree := present
  IO.sleep 20
  keepRunning root watch start tree project

def runProject (root : String) (watch : Bool) : IO UInt32 := do
  let now ← Std.Time.Timestamp.now
  let start ← IO.monoMsNow
  let clock : WallClock := .following now.toMillisecondsSinceUnixEpoch.val
  let tree ← readTree root
  match (Project.load "" Engine.core true clock).run tree with
  | (.ok project, tree) =>
    makeDirectories root tree
    keepRunning root watch start tree project.start
    return 0
  | (.error error, tree) =>
    makeDirectories root tree
    IO.eprintln error.message
    return 1

/-- Carries out a command line; the exit code. -/
def run (arguments : List String) : IO UInt32 := do
  let request := Request.read arguments
  let root := match request with
    | some (.perform project _) => project
    | _ => defaultProject
  if let some (.perform root (.run watch)) := request then return ← runProject root watch
  let tree ← match request with
    | some (.perform ..) => readTree root
    | _ => pure FileTree.empty
  match (CommandResult.ofRequest? (fun _ => "") request).run tree with
  | (some result, tree) =>
    makeDirectories root tree
    play result.output
    return result.code.number.toUInt32
  | (none, _) => return 0

end ScriptHost.Console

def main (arguments : List String) : IO UInt32 := do
  try ScriptHost.Console.run arguments
  catch error =>
    IO.eprintln error
    return 1
