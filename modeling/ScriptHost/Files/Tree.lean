import ScriptHost.Files.Path
import ScriptHost.Table
/-!
# File trees

A tree of directories, files and symbolic links as a value, with the operations of a file system
on it. A path is looked up from the root of the tree, and so is the target of a link. Looking up
follows links, a number of them that is limited, and `..` leaves the directory that was reached,
not the one that was named.

The places of a tree are lists of names from its root on; `resolve` finds the place of a path.
An operation that is not possible answers `none`.
-/
namespace ScriptHost

inductive FileNode where
  | file (content : ByteArray)
  | link (target : String)
  | directory (entries : List (String × FileNode))

instance : Inhabited FileNode := ⟨.directory []⟩

/-- Why a path leads nowhere. -/
inductive PathProblem where
  | missing
  /-- A file stands where a directory should. -/
  | notDirectory
  | linkLoop
  deriving DecidableEq, Repr

abbrev FileTree := FileNode

namespace FileTree

def empty : FileTree := .directory []

/-- As many links as one look-up follows. -/
def maxLinks : Nat := 40

/-- What is at a place. -/
def get? : List String → FileTree → Option FileNode
  | [], node => some node
  | name :: rest, .directory entries => (Table.lookup name entries).bind (get? rest)
  | _ :: _, _ => none

/-- A directory's entries with what a name stands for replaced. -/
def putEntry (name : String) (node : Option FileNode) (entries : List (String × FileNode)) :
    List (String × FileNode) :=
  entries.filter (·.1 != name) ++ (node.map fun node => (name, node)).toList

/-- The tree with what is at a place replaced, or taken away. The place must be in a directory. -/
def put : List String → Option FileNode → FileTree → FileTree
  | [], _, tree => tree
  | [name], node, .directory entries => .directory (putEntry name node entries)
  | name :: rest, node, .directory entries =>
    .directory (entries.map fun e => if e.1 = name then (name, put rest node e.2) else e)
  | _, _, tree => tree

/-- The place that components lead to from a directory on; at a link it goes on with `follow`.
With `fresh` the last name may stand for nothing yet. -/
def walkUntilLink (tree : FileTree) (fresh : Bool)
    (follow : List PathComponent → Except PathProblem (List String)) (here : List String) :
    List PathComponent → Except PathProblem (List String)
  | [] => .ok here
  | .root :: rest => walkUntilLink tree fresh follow [] rest
  | .here :: rest => walkUntilLink tree fresh follow here rest
  | .parent :: rest => walkUntilLink tree fresh follow here.dropLast rest
  | .name name :: rest =>
    match tree.get? (here ++ [name]) with
    | none => if fresh && rest.isEmpty then .ok (here ++ [name]) else .error .missing
    | some (.directory _) => walkUntilLink tree fresh follow (here ++ [name]) rest
    | some (.file _) => if rest.isEmpty then .ok (here ++ [name]) else .error .notDirectory
    | some (.link target) => follow (Path.components target ++ rest)

/-- The place that components lead to from a directory on, with this many links left to follow. -/
def walk (tree : FileTree) (fresh : Bool) : (links : Nat) → (here : List String) →
    List PathComponent →
    Except PathProblem (List String)
  | 0 => walkUntilLink tree fresh fun _ => .error .linkLoop
  | links + 1 => walkUntilLink tree fresh (walk tree fresh links [])

def resolve (tree : FileTree) (components : List PathComponent) :
    Except PathProblem (List String) :=
  walk tree false maxLinks [] components

/-- What a path leads to. -/
def find (tree : FileTree) (path : String) : Except PathProblem FileNode :=
  (tree.resolve (Path.components path)).bind fun place =>
    match tree.get? place with
    | some node => .ok node
    | none => .error .missing

def contains (tree : FileTree) (path : String) : Bool := (tree.find path).toOption.isSome

/-- Components with the last one apart, if that is a name. -/
def splitLast? (components : List PathComponent) : Option (List PathComponent × String) :=
  match components.getLast? with
  | some (.name name) => some (components.dropLast, name)
  | _ => none

/-- The place of a path whose last component is not looked up: its directory must be there. -/
def placeIn? (tree : FileTree) (path : String) : Option (List String) := do
  let (parent, name) ← splitLast? (Path.components path)
  let place ← (tree.resolve parent).toOption
  match tree.get? place with
  | some (.directory _) => some (place ++ [name])
  | _ => none

def placeText (place : List String) : String := "/".intercalate place

/-- The one text for what a path leads to. It is the same before and after the file itself is
removed; a path into nowhere stays as it is. -/
def normalize (tree : FileTree) (path : String) : String :=
  match tree.resolve (Path.components path) with
  | .ok place => placeText place
  | .error _ =>
    match splitLast? (Path.components path) with
    | none => path
    | some (parent, name) =>
      match tree.resolve parent with
      | .ok place => placeText (place ++ [name])
      | .error _ => path

/-- Makes the directories of a path that are not there; the place it then leads to. -/
def makeDirectories (tree : FileTree) (here : List String) :
    List PathComponent → Option (FileTree × List String)
  | [] => some (tree, here)
  | .name name :: rest =>
    match tree.get? (here ++ [name]) with
    | none => makeDirectories (tree.put (here ++ [name]) (some (.directory []))) (here ++
      [name]) rest
    | some _ =>
      match walk tree false maxLinks here [.name name] with
      | .error _ => none
      | .ok place =>
        match tree.get? place with
        | some (.directory _) => makeDirectories tree place rest
        | _ => none
  | .root :: rest => makeDirectories tree [] rest
  | .here :: rest => makeDirectories tree here rest
  | .parent :: rest => makeDirectories tree here.dropLast rest

/-- Makes a directory and those it lies in. -/
def makeDirectory? (tree : FileTree) (path : String) : Option FileTree :=
  (makeDirectories tree [] (Path.components path)).map (·.1)

/-- Writes a file, in place of one that is there. Directories on the way are made. -/
def write? (tree : FileTree) (path : String) (content : ByteArray) : Option FileTree := do
  let (parent, name) ← splitLast? (Path.components path)
  let (tree, here) ← makeDirectories tree [] parent
  let place ← (walk tree true maxLinks here [.name name]).toOption
  match tree.get? place with
  | some (.directory _) => none
  | _ => some (tree.put place (some (.file content)))

def removeFile? (tree : FileTree) (path : String) : Option FileTree := do
  let place ← tree.placeIn? path
  match ← tree.get? place with
  | .directory _ => none
  | _ => some (tree.put place none)

/-- Removes a directory with all that is in it, or a link. -/
def removeDirectory? (tree : FileTree) (path : String) : Option FileTree := do
  let place ← tree.placeIn? path
  match ← tree.get? place with
  | .file _ => none
  | _ => some (tree.put place none)

/-- Makes a link where nothing is. -/
def makeLink? (tree : FileTree) (path target : String) : Option FileTree := do
  let place ← tree.placeIn? path
  if (tree.get? place).isSome then none else some (tree.put place (some (.link target)))

/-- Whether a node may come in the place of another: a directory in that of an empty one,
anything else in that of anything but a directory. -/
def mayReplace (node : FileNode) : Option FileNode → Bool
  | none => true
  | some (.directory entries) =>
    match node with
    | .directory _ => entries.isEmpty
    | _ => false
  | some _ =>
    match node with
    | .directory _ => false
    | _ => true

/-- Gives a file, a link or a directory another place, outside of itself. -/
def rename? (tree : FileTree) (path target : String) : Option FileTree := do
  let source ← tree.placeIn? path
  let place ← tree.placeIn? target
  let node ← tree.get? source
  if source = place then some tree
  else if source.isPrefixOf place || !mayReplace node (tree.get? place) then none
  else some ((tree.put source none).put place (some node))

end FileTree
end ScriptHost
