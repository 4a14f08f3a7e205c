import ScriptHost.Config.Settings
import ScriptHost.Files.Path
/-!
# Changes to a project's files

Which part of a project a path belongs to, as seen from the project's root: the settings file, a
file of handlers or a file of schedules. Files of handlers and schedules lie directly in their
directories and have the extension of configuration files; everything else in a project is of no
concern.
-/
namespace ScriptHost

def handlersDirectory : String := "handlers"

def schedulesDirectory : String := "schedules"

/-- The end of the name of a configuration file. -/
def configExtension : String := ".toml"

/-- Whether a file of this name is a configuration file: the extension follows a name that is
not empty. -/
def isConfigName (name : String) : Bool :=
  configExtension.toList.isSuffixOf name.toList && configExtension.length < name.length

/-- A change that a project reacts to. -/
inductive FileChange where
  | handlers (path : String)
  | schedules (path : String)
  | settings
  deriving Repr

namespace FileChange

/-- Whether two changes are one; two spellings of a path are the same file. -/
def same : FileChange → FileChange → Bool
  | handlers path, handlers other => Path.same path other
  | schedules path, schedules other => Path.same path other
  | settings, settings => true
  | _, _ => false

/-- The change that a path under a project's root stands for. -/
def ofPath? (root path : String) : Option FileChange :=
  match Path.behind? (Path.components root) (Path.components path) with
  | some [.name name] => if name = settingsFile then some settings else none
  | some [.name directory, .name name] =>
    if !isConfigName name then none
    else if directory = handlersDirectory then some (handlers path)
    else if directory = schedulesDirectory then some (schedules path)
    else none
  | _ => none

/-- The changes without those that are the same as an earlier one. -/
def distinct (changes : List FileChange) : List FileChange :=
  changes.foldl (fun kept change => if kept.any change.same then kept else kept ++ [change]) []

end FileChange

/-- What happened to the files of an event. -/
inductive FileEventKind where
  | created
  | modified
  | removed
  | other
  deriving DecidableEq, Repr

/-- The changes that an event implies: those of its paths, each once, if it changed the files at
all. -/
def FileChange.ofEvent (root : String) (kind : FileEventKind) (paths : List String) :
    List FileChange :=
  match kind with
  | .other => []
  | .created | .modified | .removed => distinct (paths.filterMap (ofPath? root))

end ScriptHost
