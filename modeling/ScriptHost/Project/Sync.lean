import ScriptHost.Config.Entry
import ScriptHost.Files.Path
/-!
# Keeping entities in step with files

The files of a directory define entities: each top-level table of a file defines the one of its
name. A registry has the live entities, each with the file that defines it. An id belongs to one
file at a time; a definition of it elsewhere is a conflict, and the first stays.

`EntityKind` says what an entity of some kind does when it comes, changes and goes, in the
surroundings that entities of that kind share. `Registry.load` makes a registry anew from files,
`Registry.sync` takes over the present contents of one file: entities that stay are updated in
place and all others are left alone.
-/
namespace ScriptHost

/-- What the files of a directory define, one table for each file. -/
abbrev ConfigDocument := Table Toml.Value

namespace ConfigEntry

/-- The entry that a top-level value is, if it is a table. -/
def ofValue? : Toml.Value → Option ConfigEntry
  | .table entries => some (.ofList entries)
  | _ => none

end ConfigEntry

/-- How entities of one kind live, in surroundings `σ`. -/
structure EntityKind (σ α : Type) where
  /-- Makes an entity from an entry, unless the entry cannot be read. -/
  create : String → ConfigEntry → σ → Option α × σ
  /-- Gives an entity a new entry. -/
  update : α → ConfigEntry → σ → α × σ
  /-- Makes an entity let go of everything; it is gone afterwards. -/
  retire : α → σ → σ
  /-- What follows when an entity was made for a file that changed. -/
  activate : α → σ → α × σ
  /-- What follows once when all entities were loaded, given their ids. -/
  loaded : List String → σ → σ := fun _ s => s
  /-- What follows for each entity when all were loaded. -/
  loadedEach : α → σ → α × σ := fun a s => (a, s)

/-- An entity and the file that defines it. -/
structure Owned (α : Type) where
  file : String
  entity : α

abbrev Registry (α : Type) := Table (Owned α)

structure LoadReport where
  loaded : Nat := 0
  conflicts : Nat := 0
  failed : Nat := 0
  deriving DecidableEq, Repr

structure SyncReport where
  updated : Nat := 0
  created : Nat := 0
  removed : Nat := 0
  conflicts : Nat := 0
  failed : Nat := 0
  deriving DecidableEq, Repr

namespace Registry

variable {σ α : Type} (kind : EntityKind σ α)

/-- Makes all entities let go, in the order of their ids. -/
def retireAll (registry : Registry α) (s : σ) : σ :=
  registry.values.foldl (fun s owned => kind.retire owned.entity s) s

def mapEntities (f : α → σ → α × σ) (registry : Registry α) (s : σ) : Registry α × σ :=
  registry.mapFold (fun _ owned s =>
    let (entity, s) := f owned.entity s; ({ owned with entity }, s)) s

/-! ## Loading -/

/-- A registry under construction. -/
structure Loading (σ α : Type) where
  registry : Registry α
  surroundings : σ
  report : LoadReport := {}

def loadDefinition (file : String) (l : Loading σ α) (definition : String × Toml.Value) :
    Loading σ α :=
  let (id, value) := definition
  match ConfigEntry.ofValue? value with
  | none => { l with report.failed := l.report.failed + 1 }
  | some entry =>
    if entry.isDisabled then l
    else if l.registry.contains id then { l with report.conflicts := l.report.conflicts + 1 }
    else
      match kind.create id entry l.surroundings with
      | (none, s) => { l with surroundings := s, report.failed := l.report.failed + 1 }
      | (some entity, s) =>
        { registry := l.registry.insert id ⟨file, entity⟩
          surroundings := s
          report := { l.report with loaded := l.report.loaded + 1 } }

def loadFile (l : Loading σ α) (file : String × ConfigDocument) : Loading σ α :=
  file.2.toList.foldl (loadDefinition kind file.1) l

/-- The registry of some files, in place of another. -/
def load (registry : Registry α) (files : List (String × ConfigDocument)) (s : σ) : Loading σ α :=
  let l := files.foldl (loadFile kind) ⟨.empty, retireAll kind registry s, {}⟩
  let (registry, s) :=
    mapEntities kind.loadedEach l.registry (kind.loaded l.registry.keys l.surroundings)
  ⟨registry, s, l.report⟩

/-! ## Taking over one file -/

/-- A registry on the way to the present contents of a file. -/
structure Syncing (σ α : Type) where
  registry : Registry α
  surroundings : σ
  report : SyncReport := {}

/-- The entry of an id in a document, if it is one and not disabled. -/
def definition? (document : ConfigDocument) (id : String) : Option ConfigEntry :=
  (document.get? id).bind fun value =>
    (ConfigEntry.ofValue? value).filter fun entry => !entry.isDisabled

/-- Updates an entity that its file still defines, and retires one that it does not. -/
def syncOwned (document : ConfigDocument) (y : Syncing σ α) (owned : String × Owned α) :
    Syncing σ α :=
  let (id, ⟨file, entity⟩) := owned
  match definition? document id with
  | some entry =>
    let (entity, s) := kind.update entity entry y.surroundings
    { registry := y.registry.insert id ⟨file, entity⟩
      surroundings := s
      report := { y.report with updated := y.report.updated + 1 } }
  | none =>
    { registry := y.registry.erase id
      surroundings := kind.retire entity y.surroundings
      report := { y.report with removed := y.report.removed + 1 } }

/-- Makes an entity that a file defines anew, unless its id belongs to another file. -/
def syncNew (file : String) (y : Syncing σ α) (id : String) (entry : ConfigEntry) : Syncing σ α :=
  if y.registry.contains id then { y with report.conflicts := y.report.conflicts + 1 }
  else
    match kind.create id entry y.surroundings with
    | (none, s) => { y with surroundings := s, report.failed := y.report.failed + 1 }
    | (some entity, s) =>
      let (entity, s) := kind.activate entity s
      { registry := y.registry.insert id ⟨file, entity⟩
        surroundings := s
        report := { y.report with created := y.report.created + 1 } }

/-- The entities that a file defines, in the order of their ids. -/
def ownedBy (registry : Registry α) (file : String) : List (String × Owned α) :=
  registry.toList.filter fun e => Path.same e.2.file file

/-- Takes over the present contents of a file; a file that is gone has none. -/
def sync (registry : Registry α) (file : String) (document : ConfigDocument) (s : σ) :
    Syncing σ α :=
  let failed := (document.values.filter fun value => (ConfigEntry.ofValue? value).isNone).length
  let owned := registry.ownedBy file
  let y := owned.foldl (syncOwned kind document) ⟨registry, s, { failed }⟩
  let isOwned (id : String) : Bool := owned.any fun e => e.1 == id
  document.keys.foldl (fun y id =>
    match definition? document id with
    | some entry => if isOwned id then y else syncNew kind file y id entry
    | none => y) y

def clear (registry : Registry α) (s : σ) : Registry α × σ := (.empty, retireAll kind registry s)

end Registry
end ScriptHost
