import ScriptHost.Project.Loading
/-!
# Watching files

Which files of a project differ between two states of its directory.
-/
namespace ScriptHost

/-- The paths of the files of a project that matter, in a tree whose root is the project's
directory. -/
def watchedPaths (tree : FileTree) : List String :=
  settingsFile :: [handlersDirectory, schedulesDirectory].flatMap fun directory =>
    match tree.find directory with
    | .ok (.directory entries) => entries.map fun (name, _) => Path.join directory name
    | _ => []

def contents? (tree : FileTree) (path : String) : Option ByteArray :=
  match tree.find path with
  | .ok (.file content) => some content
  | _ => none

/-- The changes from one state of a project's directory to another. -/
def FileChange.between (before after : FileTree) : List FileChange :=
  let paths := (watchedPaths before ++ watchedPaths after).filter fun path =>
    contents? before path != contents? after path
  distinct (paths.filterMap (ofPath? ""))

end ScriptHost
