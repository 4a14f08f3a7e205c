import ScriptHost.Files.Tree
import ScriptHost.Project.Change
import ScriptHost.Project.Sync
/-!
# Reading a project's files

Settings, files of handlers and files of schedules are read from a file tree, in which missing
directories are made. Reading fails as a whole if one file cannot be read or is no document;
what it did to the tree until then stays.
-/
namespace ScriptHost

inductive LoadError where
  /-- A file or directory cannot be read as what it should be. -/
  | unreadable
  | malformed (path : String)
  deriving DecidableEq, Repr

def LoadError.message : LoadError → String
  | unreadable => "Failed to read file"
  | malformed path => "Failed to parse " ++ path

/-- A computation on a file tree that may fail. -/
abbrev Disk (α : Type) := ExceptT LoadError (StateM FileTree) α

namespace Disk

/-- Whether a path leads to something. A file where a directory should be, or links in a circle,
are failures. -/
def contains (path : String) : Disk Bool := do
  match (← get).find path with
  | .ok _ => return true
  | .error .missing => return false
  | .error _ => throw .unreadable

/-- Makes a directory unless there is something at its path. -/
def ensureDirectory (path : String) : Disk Unit := do
  unless ← contains path do
    match (← get).makeDirectory? path with
    | some tree => set tree
    | none => throw .unreadable

/-- The text of a file, if there is something at its path. -/
def readText? (path : String) : Disk (Option String) := do
  unless ← contains path do return none
  match (← get).find path with
  | .ok (.file content) =>
    match String.fromUTF8? content with
    | some text => return some text
    | none => throw .unreadable
  | _ => throw .unreadable

/-- The document of a file, if there is something at its path. -/
def readDocument? (path : String) : Disk (Option ConfigDocument) := do
  match ← readText? path with
  | none => return none
  | some text =>
    match Toml.read? text with
    | some document => return some document
    | none => throw (.malformed path)

/-- The names of the configuration files right inside a directory, in ascending order. -/
def configNames (entries : List (String × FileNode)) : List String :=
  let names := entries.filterMap fun
    | (name, .file _) => if isConfigName name then some name else none
    | _ => none
  names.mergeSort fun first second => first ≤ second

/-- The documents of the configuration files right inside a directory, in the order of their
names. -/
def readDirectory (path : String) : Disk (List (String × ConfigDocument)) := do
  match (← get).find path with
  | .ok (.directory entries) =>
    let documents ← (configNames entries).mapM fun name => do
      let file := (← get).normalize (Path.join path name)
      let document ← readDocument? file
      return document.map fun document => (file, document)
    return documents.reduceOption
  | _ => throw .unreadable

/-- The documents of a directory, which is made if it is missing. -/
def prepare (path : String) : Disk (List (String × ConfigDocument)) := do
  ensureDirectory path
  readDirectory path

/-- The settings of a project: without a settings file, the usual ones. -/
def readSettings (root : String) : Disk Settings := do
  let path := Path.join root settingsFile
  match ← readText? path with
  | none => return {}
  | some text =>
    match Settings.read? text with
    | some settings => return settings
    | none => throw (.malformed path)

/-- A configuration file by its path in one spelling, with its document; a file that is gone has
an empty one. -/
def readConfig (path : String) : Disk (String × ConfigDocument) := do
  let file := (← get).normalize path
  let document ← readDocument? file
  return (file, document.getD .empty)

end Disk

/-- Takes over the present contents of a file into a registry of entities. -/
def Registry.syncFile {σ α : Type} (kind : EntityKind σ α) (registry : Registry α)
    (path : String) (s : σ) : Disk (Registry.Syncing σ α) := do
  let (file, document) ← Disk.readConfig path
  return registry.sync kind file document s

end ScriptHost
