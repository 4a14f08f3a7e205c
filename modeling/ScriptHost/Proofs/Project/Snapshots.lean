import ScriptHost.Proofs.Project.Converging
import ScriptHost.Proofs.Project.Dispatching
/-!
# Loads and files taken over meanwhile

A load reads all files of a directory first and puts what it has read in place later. In between
files may be written and taken over one by one, and other loads may begin or end.

**Scenes.** A scene is a project amid such moves: the disk as it is, what the loads that have begun
have read, and, as a record, from which disk each file was read that was taken over last.

**Results.**
* `Told.run`: what is held of an id is what its file offered when the call read it that was put in
  place last, however old that is by then.
* `last_call_wins`: so the files that were read after they were written last are reflected.
* `older_snapshot_wins`: it is not enough that each file was taken over after it was written last.
-/
namespace ScriptHost.Project

open Registry

/-! ## Moves -/

/-- What a load has read, and the disk that it has read it from. -/
structure Snapshot where
  disk : FileTree
  documents : List (String × ConfigDocument)

/-- A project amid loads and files that are taken over. -/
structure Scene where
  project : Project
  disk : FileTree
  /-- What the loads that have begun have read. -/
  prepared : Nat → Option Snapshot
  /-- The disk from which the file at a place was read by the call that took it over last. -/
  source : List PathComponent → FileTree

/-- What may happen in between. -/
inductive Move where
  /-- Files are written, made or removed, in whatever way. -/
  | write (disk : FileTree)
  /-- A load reads all files. -/
  | prepare (load : Nat)
  /-- What a load has read is put in place. -/
  | apply (load : Nat)
  /-- A file is read and taken over. -/
  | sync (path : String)

namespace Scene

variable (part : Part) (scene : Scene)

/-- A load begins. If it cannot read what it needs there is nothing to put in place. -/
def prepare (load : Nat) : Scene :=
  let reading := Disk.prepare (part.path scene.project.root)
  { scene with
    disk := (reading.run.run scene.disk).2
    prepared := fun other =>
      if other = load then (reading.outcome? scene.disk).map (Snapshot.mk scene.disk)
      else scene.prepared other }

/-- A load that has begun is brought to its end. -/
def apply (load : Nat) : Scene :=
  (scene.prepared load).elim scene fun snapshot =>
    { scene with
      project := (part.replace scene.project snapshot.documents).1
      prepared := fun other => if other = load then none else scene.prepared other
      source := fun _ => snapshot.disk }

/-- A file is read and taken over at once, unless it cannot be read. -/
def sync (path : String) : Scene :=
  ((Disk.readConfig path).outcome? scene.disk).elim scene fun read =>
    { scene with
      project := (part.update scene.project read.1 read.2).1
      source := fun place =>
        if place = Path.components read.1 then scene.disk else scene.source place }

end Scene

def Move.perform (part : Part) (scene : Scene) : Move → Scene
  | .write disk => { scene with disk }
  | .prepare load => scene.prepare part load
  | .apply load => scene.apply part load
  | .sync path => scene.sync part path

def Scene.run (part : Part) (scene : Scene) (moves : List Move) : Scene :=
  moves.foldl (Move.perform part) scene

/-! ## What files say -/

def contentsOf (documents : List (String × ConfigDocument)) (place : List PathComponent) :
    ConfigDocument :=
  ((documents.find? fun e => Path.components e.1 == place).map (·.2)).getD .empty

theorem contentsOf_of_mem {documents : List (String × ConfigDocument)}
    (consistent : Consistent documents)
    {file : String} {document : ConfigDocument} (mem : (file, document) ∈ documents) :
    contentsOf documents (Path.components file) = document := by
  cases found : documents.find? fun e => Path.components e.1 == Path.components file with
  | none =>
    have apart := List.find?_eq_none.1 found _ mem
    simp at apart
  | some e =>
    have same : Path.components e.1 = Path.components file := by simpa using List.find?_some found
    have eq := consistent _ _ _ _ (List.mem_of_find?_eq_some found) mem (by simp [Path.same, same])
    rw [contentsOf, found, Option.map_some, Option.getD_some, eq]

theorem mem_of_contentsOf {documents : List (String × ConfigDocument)} {place : List PathComponent}
    {id : String} (defines : (definition? (contentsOf documents place) id).isSome) :
    ∃ file, Path.components file = place ∧ (file, contentsOf documents place) ∈ documents := by
  unfold contentsOf at defines ⊢
  cases found : documents.find? fun e => Path.components e.1 == place with
  | none =>
    rw [found] at defines
    cases defines
  | some e =>
    refine ⟨e.1, by simpa using List.find?_some found, ?_⟩
    exact List.mem_of_find?_eq_some found

namespace Part

variable (part : Part) (root : String) (home : String → List PathComponent)

/-- The document of the file at a place, as the part's directory has it on a disk. -/
def contentAt (disk : FileTree) (place : List PathComponent) : ConfigDocument :=
  contentsOf (((Disk.prepare (part.path root)).outcome? disk).getD []) place

/-- Each id that a document defines belongs to the place of its file, and can be read. -/
def Owns (place : List PathComponent) (document : ConfigDocument) : Prop :=
  ∀ id entry, definition? document id = some entry → home id = place ∧ (part.read? id entry).isSome

/-- These are the documents of the part's directory on a disk, and no id is defined outside of the
file that it belongs to. -/
structure Lists (disk : FileTree) (documents : List (String × ConfigDocument)) : Prop where
  read : (Disk.prepare (part.path root)).outcome? disk = some documents
  owns : ∀ file document, (file, document) ∈ documents →
    part.Owns home (Path.components file) document

variable {part root home} {disk : FileTree} {documents : List (String × ConfigDocument)}

theorem Lists.contentAt (lists : part.Lists root home disk documents) :
    part.contentAt root disk = contentsOf documents := by
  funext place
  rw [Part.contentAt, lists.read, Option.getD_some]

theorem Lists.heldBy (lists : part.Lists root home disk documents) (id : String) :
    heldBy part.read? documents id =
      offered part.read? id (home id, contentsOf documents (home id)) := by
  have consistent := Disk.consistent_of_prepare lists.read
  have unshared : Unshared documents := by
    intro file document file' document' id mem mem' defines defines'
    obtain ⟨entry, defined⟩ := Option.isSome_iff_exists.1 defines
    obtain ⟨entry', defined'⟩ := Option.isSome_iff_exists.1 defines'
    have first := (lists.owns _ _ mem id entry defined).1
    have second := (lists.owns _ _ mem' id entry' defined').1
    simp [Path.same, ← first, ← second]
  cases held : Registry.heldBy part.read? documents id with
  | some x =>
    obtain ⟨file, document, mem, place, defined, -⟩ := heldBy_eq_some held
    have belongs := (lists.owns file document mem id x.entry defined).1
    have contents := contentsOf_of_mem consistent mem
    rw [← held, heldBy_eq_offered unshared consistent mem (by simp [defined]), belongs, contents]
  | none =>
    by_cases defines : (definition? (contentsOf documents (home id)) id).isSome
    · obtain ⟨file, place, mem⟩ := mem_of_contentsOf defines
      rw [← held, heldBy_eq_offered unshared consistent mem defines, place]
    · rw [Option.not_isSome_iff_eq_none] at defines
      rw [offered, defines]
      rfl

theorem Lists.readConfig (lists : part.Lists root home disk documents)
    (stands : disk.contains (part.path root)) {path file : String} {document : ConfigDocument}
    (mem : (file, document) ∈ documents) (same : Path.same file (disk.normalize path)) :
    (Disk.readConfig path).outcome? disk = some (disk.normalize path,
      contentsOf documents (Path.components (disk.normalize path))) := by
  obtain ⟨tree, isDisk, documentOf⟩ := Disk.document_of_prepare lists.read
  obtain rfl := isDisk stands
  have place : Path.components (tree.normalize path) = Path.components file :=
    (show Path.components file = _ by simpa [Path.same] using same).symm
  rw [(Disk.gives_readConfig path tree).outcome, ← Disk.find_congr same,
    documentOf file document mem,
    place, contentsOf_of_mem (Disk.consistent_of_prepare lists.read) mem]
  rfl

end Part

/-! ## What is put in place last -/

/-- A call can read what it needs: all files of the directory, in which each id belongs to one file
and every entry is valid, and a file that is taken over is one of the directory's, or is gone. -/
def Move.Allowed (part : Part) (root : String) (home : String → List PathComponent)
    (scene : Scene) : Move → Prop
  | .write _ | .apply _ => True
  | .prepare _ => ∃ documents, part.Lists root home scene.disk documents
  | .sync path => ∃ documents, part.Lists root home scene.disk documents ∧
      (Disk.readConfig path).outcome? scene.disk = some (scene.disk.normalize path,
        contentsOf documents (Path.components (scene.disk.normalize path)))

def Allowed (part : Part) (root : String) (home : String → List PathComponent) :
    Scene → List Move → Prop
  | _, [] => True
  | scene, move :: rest =>
    move.Allowed part root home scene ∧ Allowed part root home (move.perform part scene) rest

section

variable {root : String} {engine : Engine} {clock : WallClock} {part : Part}
  {home : String → List PathComponent} {scene : Scene}

/-- What holds all through a run. -/
structure Told (root : String) (engine : Engine) (clock : WallClock) (part : Part)
    (home : String → List PathComponent) (scene : Scene) : Prop where
  lasting : Lasting root engine clock scene.project
  prepared : ∀ load snapshot, scene.prepared load = some snapshot →
    part.Lists root home snapshot.disk snapshot.documents
  /-- What is held of an id is what its file offered when it was read. -/
  held : ∀ id, part.holding scene.project id = offered part.read? id
    (home id, part.contentAt root (scene.source (home id)) (home id))

/-- A file that is taken over decides on the ids that belong to it, and on no others. -/
theorem syncAt_owned {place : List PathComponent} {document : ConfigDocument}
    (owns : part.Owns home place document) (id : String) (earlier : ConfigDocument) :
    syncAt part.read? id (offered part.read? id (home id, earlier)) (place, document) =
      if home id = place then offered part.read? id (place, document)
      else offered part.read? id (home id, earlier) := by
  cases held : offered part.read? id (home id, earlier) with
  | none =>
    rw [syncAt]
    split
    · rfl
    · next elsewhere =>
      cases defined : definition? document id with
      | none => rw [offered, defined]; rfl
      | some entry => exact absurd (owns id entry defined).1 elsewhere
  | some x =>
    have place' := offered_place held
    rw [syncAt]
    simp only [place']
    split
    · next same =>
      cases defined : definition? document id with
      | none => rw [offered, defined]; rfl
      | some entry =>
        obtain ⟨config, read⟩ := Option.isSome_iff_exists.1 (owns id entry defined).2
        simp [offered, defined, read]
    · rfl

namespace Told

theorem prepare (told : Told root engine clock part home scene)
    {documents : List (String × ConfigDocument)}
    (lists : part.Lists root home scene.disk documents) (load : Nat) :
    Told root engine clock part home (scene.prepare part load) where
  lasting := told.lasting
  prepared other snapshot known := by
    unfold Scene.prepare at known
    simp only at known
    split at known
    · rw [told.lasting.place, lists.read] at known
      cases known
      exact lists
    · exact told.prepared other snapshot known
  held := told.held

theorem apply (told : Told root engine clock part home scene) (load : Nat) :
    Told root engine clock part home (scene.apply part load) := by
  unfold Scene.apply
  cases known : scene.prepared load with
  | none => exact told
  | some snapshot =>
    have lists := told.prepared load snapshot known
    have lasting := told.lasting.perform (part.load snapshot.disk)
    rw [load_perform part (told.lasting.place ▸ lists.read)] at lasting
    refine ⟨lasting, fun other snapshot known => ?_, fun id => ?_⟩
    · simp only [Option.elim_some] at known
      split at known
      · cases known
      · exact told.prepared other snapshot known
    refine (holding_replace part told.lasting snapshot.documents id).trans ?_
    refine (lists.heldBy id).trans ?_
    rw [← lists.contentAt]
    rfl

theorem sync (told : Told root engine clock part home scene)
    {documents : List (String × ConfigDocument)}
    (lists : part.Lists root home scene.disk documents) {path file : String}
    (read : (Disk.readConfig path).outcome? scene.disk =
      some (file, contentsOf documents (Path.components file))) :
    Told root engine clock part home (scene.sync part path) := by
  unfold Scene.sync
  rw [read]
  have lasting := told.lasting.perform (part.sync scene.disk path)
  rw [sync_perform part read] at lasting
  have owns :
      part.Owns home (Path.components file) (contentsOf documents (Path.components file)) := by
    intro id entry defined
    obtain ⟨other, place, mem⟩ := mem_of_contentsOf (by rw [defined]; rfl)
    exact place ▸ lists.owns _ _ mem id entry defined
  refine ⟨lasting, told.prepared, fun id => ?_⟩
  refine (holding_update part told.lasting file _ id).trans ?_
  rw [told.held, syncAt_owned owns]
  simp only [Option.elim_some]
  split
  · next here => rw [lists.contentAt, here]
  · rfl

theorem perform (told : Told root engine clock part home scene) {move : Move}
    (allowed : move.Allowed part root home scene) :
    Told root engine clock part home (move.perform part scene) := by
  cases move with
  | write disk => exact ⟨told.lasting, told.prepared, told.held⟩
  | prepare load =>
    obtain ⟨documents, lists⟩ := allowed
    exact told.prepare lists load
  | apply load => exact told.apply load
  | sync path =>
    obtain ⟨documents, lists, read⟩ := allowed
    exact told.sync lists read

/-- What is held of an id is what its file offered when the call read it that was put in place
last. -/
theorem run (told : Told root engine clock part home scene) {moves : List Move}
    (allowed : Allowed part root home scene moves) :
    Told root engine clock part home (scene.run part moves) := by
  induction moves generalizing scene with
  | nil => exact told
  | cons move rest ih => exact ih (told.perform allowed.1) allowed.2

end Told

end

/-- A scene before the first move: a project that holds what one disk had, and the disk as it is
now. -/
def Scene.opening (project : Project) (held disk : FileTree) : Scene where
  project
  disk
  prepared _ := none
  source _ := held

theorem Told.opening {root : String} {engine : Engine} {clock : WallClock} {part : Part}
    {home : String → List PathComponent} {project : Project} {held disk : FileTree}
    {documents : List (String × ConfigDocument)} (lasting : Lasting root engine clock project)
    (lists : part.Lists root home held documents)
    (agrees : ∀ id, part.holding project id = heldBy part.read? documents id) :
    Told root engine clock part home (.opening project held disk) := by
  refine ⟨lasting, fun _ _ begun => ?_, fun id => ?_⟩
  · cases begun
  · have offers := (agrees id).trans (lists.heldBy id)
    rwa [← lists.contentAt] at offers

/-- Files are written, loads begin and end, and files are taken over, in any order, while all files
can be read, all entries are valid and no id is ever defined in two files. Then what is held of an
id is always what its file offered when the call read it that was put in place last, be it a load
or the file itself that was taken over. So if that file has not been written since that call read
it, what is held is what a full load would hold. -/
theorem last_call_wins {root : String} {engine : Engine} {extend : Bool} {clock : WallClock}
    {disk' disk₀ disk : FileTree} {project : Project}
    (loaded : (load root engine extend clock).outcome? disk' = some project) (events : List Event)
    (part : Part) (home : String → List PathComponent) {old : List (String × ConfigDocument)}
    (lists : part.Lists root home disk₀ old)
    (agrees : ∀ id, part.holding (project.session events) id = heldBy part.read? old id)
    {moves : List Move}
    (allowed : Allowed part root home (.opening (project.session events) disk₀ disk) moves) :
    let after := (Scene.opening (project.session events) disk₀ disk).run part moves
    ∀ id, part.holding after.project id = offered part.read? id
        (home id, part.contentAt root (after.source (home id)) (home id)) ∧
      ∀ new, part.Lists root home after.disk new →
        part.contentAt root (after.source (home id)) (home id) =
          part.contentAt root after.disk (home id) →
        part.holding after.project id =
          part.holding ((part.load after.disk).perform after.project) id := by
  intro after id
  have told : Told root _ clock part home after :=
    (Told.opening ((Lasting.load loaded).session events) lists agrees).run allowed
  refine ⟨told.held id, fun new lists' unwritten => ?_⟩
  rw [holding_load part told.lasting lists'.read, lists'.heldBy, ← lists'.contentAt, ← unwritten]
  exact told.held id

/-! ## A file that lets its handler go -/

/-- The file from which the handler departs, when nothing is defined in it any more. -/
def vacated : FileTree := .directory [("p", .directory [
  ("handlers", .directory [("a.toml", textFile ["# nobody"])]), ("schedules", .directory [])])]

/-- The one place that ids belong to. -/
def onlyHome (_ : String) : List PathComponent := Path.components (vacated.normalize departure)

/-- What can be checked of documents that are all at home. -/
def areAtHome (documents : List (String × ConfigDocument)) : Bool :=
  documents.all fun e => e.2.keys.all fun id => (definition? e.2 id).all fun entry =>
    decide (onlyHome id = Path.components e.1) && (Handler.read? id entry).isSome

theorem lists_of_areAtHome {disk : FileTree} {documents : List (String × ConfigDocument)}
    (read : (Disk.prepare (Part.path .handlers "/p")).outcome? disk = some documents)
    (checked : areAtHome documents = true) :
    Part.Lists .handlers "/p" onlyHome disk documents := by
  refine ⟨read, fun file document mem id entry defined => ?_⟩
  have listed : id ∈ document.keys := by
    rw [Table.mem_keys]
    by_contra absent
    rw [Option.not_isSome_iff_eq_none] at absent
    simp [definition?, absent] at defined
  have checked := List.all_eq_true.1 (List.all_eq_true.1 checked _ mem) id listed
  rw [defined, Option.all_some, Bool.and_eq_true, decide_eq_true_eq] at checked
  exact checked

/-- The handler's file is written, so that it lets the handler go. -/
structure Vacating (project : Project) (old new : List (String × ConfigDocument)) : Prop where
  loaded : ∃ disk, (Project.load "/p" StandardActions.engine false (.standing 0)).outcome? disk =
    some project
  lists₀ : Part.Lists .handlers "/p" onlyHome departing old
  lists : Part.Lists .handlers "/p" onlyHome vacated new
  read : (Disk.readConfig departure).outcome? vacated = some (vacated.normalize departure,
    contentsOf new (Path.components (vacated.normalize departure)))
  /-- All files of the directory are the one. -/
  alone : ∀ file document, (file, document) ∈ new → Path.same file (vacated.normalize departure)
  offers : (offered Handler.read? "nomad" (onlyHome "nomad",
    contentsOf old (onlyHome "nomad"))).isSome
  gone : definition? (contentsOf new (onlyHome "nomad")) "nomad" = none

theorem vacating : ∃ project old new, Vacating project old new := by
  have checked : (((Disk.prepare (Part.path .handlers "/p")).outcome? departing).any fun old =>
      ((Disk.prepare (Part.path .handlers "/p")).outcome? vacated).any fun new =>
        areAtHome old && areAtHome new &&
          (new.any fun e => Path.same e.1 (vacated.normalize departure)) &&
          (new.all fun e => Path.same e.1 (vacated.normalize departure)) &&
          (offered Handler.read? "nomad" (onlyHome "nomad",
            contentsOf old (onlyHome "nomad"))).isSome &&
          (definition? (contentsOf new (onlyHome "nomad")) "nomad").isNone) = true := by
    decide +kernel
  obtain ⟨old, read₀, checked⟩ := (Option.any_eq_true _ _).1 checked
  obtain ⟨new, read, checked⟩ := (Option.any_eq_true _ _).1 checked
  simp only [Bool.and_eq_true] at checked
  obtain ⟨⟨⟨⟨⟨home₀, home⟩, one⟩, all⟩, offers⟩, gone⟩ := checked
  obtain ⟨⟨file, document⟩, mem, same⟩ := List.any_eq_true.1 one
  obtain ⟨t, loaded, -⟩ := trio_parts
  have lists := lists_of_areAtHome read home
  refine ⟨t.project, old, new, ⟨trio, ?_⟩, lists_of_areAtHome read₀ home₀, lists,
    lists.readConfig (by decide +kernel) mem same,
    fun file document mem => List.all_eq_true.1 all _ mem, offers, Option.isNone_iff_eq_none.1 gone⟩
  rw [← Trace.project_load, Disk.outcome?_map, loaded, Option.map_some]

namespace Vacating

variable {project : Project} {old new : List (String × ConfigDocument)} {scene : Scene}

/-- The project holds what its file had before it was written. -/
theorem opening (h : Vacating project old new) :
    Told "/p" StandardActions.engine (.standing 0) .handlers onlyHome
      (.opening (project.session [Part.load .handlers departing]) departing departing) := by
  obtain ⟨disk, loaded⟩ := h.loaded
  exact .opening ((Lasting.load loaded).session _) h.lists₀
    (holding_load .handlers (Lasting.load loaded) h.lists₀.read)

theorem taken (h : Vacating project old new) (scene : Scene) :
    ∃ after, scene.run .handlers [.write vacated, .sync departure] = after ∧
      after.disk = vacated ∧ after.source (onlyHome "nomad") = vacated ∧
      after.prepared = scene.prepared := by
  refine ⟨_, rfl, ?_⟩
  change (Scene.sync .handlers { scene with disk := vacated } departure).disk = vacated ∧
    (Scene.sync .handlers { scene with disk := vacated } departure).source (onlyHome "nomad") =
      vacated ∧ (Scene.sync .handlers { scene with disk := vacated } departure).prepared =
        scene.prepared
  rw [Scene.sync, h.read]
  exact ⟨rfl, if_pos rfl, rfl⟩

theorem allowed (h : Vacating project old new) (scene : Scene) :
    Allowed .handlers "/p" onlyHome scene [.write vacated, .sync departure] :=
  ⟨trivial, ⟨new, h.lists, h.read⟩, trivial⟩

/-- A full load does not find the handler any more. -/
theorem absent (h : Vacating project old new) {engine : Engine} {clock : WallClock}
    (lasting : Lasting "/p" engine clock scene.project) (now : scene.disk = vacated) :
    Part.holding .handlers ((Part.load .handlers scene.disk).perform scene.project) "nomad" =
      none := by
  rw [now, holding_load .handlers lasting h.lists.read, h.lists.heldBy, offered, h.gone]
  rfl

end Vacating

/-- The handler's file is taken over after it was written, so the handler is gone. -/
theorem last_call_wins_vacating : ∃ project old new, Vacating project old new ∧
    Part.holding .handlers ((Scene.opening (project.session [Part.load .handlers departing])
      departing departing).run .handlers [.write vacated, .sync departure]).project "nomad" =
        none := by
  obtain ⟨project, old, new, h⟩ := vacating
  obtain ⟨disk, loaded⟩ := h.loaded
  have agrees := holding_load .handlers (Lasting.load loaded) h.lists₀.read
  have wins := last_call_wins loaded [Part.load .handlers departing] .handlers onlyHome h.lists₀
    agrees (h.allowed (.opening _ _ departing)) "nomad"
  have told := h.opening.run (h.allowed _)
  obtain ⟨after, ran, onDisk, fromDisk, -⟩ := h.taken
    (.opening (project.session [Part.load .handlers departing]) departing departing)
  refine ⟨project, old, new, h, ?_⟩
  rw [ran] at wins told ⊢
  have lists : Part.Lists .handlers "/p" onlyHome after.disk new := by
    rw [onDisk]
    exact h.lists
  have unwritten := wins.2 new lists (by rw [fromDisk, onDisk])
  exact unwritten.trans (h.absent told.lasting onDisk)

/-- A load that has begun before puts the old file in place again. -/
theorem Vacating.undone {project : Project} {old new : List (String × ConfigDocument)}
    (h : Vacating project old new) : ∃ after,
    (Scene.opening (project.session [Part.load .handlers departing]) departing departing).run
      .handlers [.prepare 0, .write vacated, .sync departure, .apply 0] = after ∧
    Allowed .handlers "/p" onlyHome
      (.opening (project.session [Part.load .handlers departing]) departing departing)
      [.prepare 0, .write vacated, .sync departure, .apply 0] ∧
    after.disk = vacated ∧ after.source (onlyHome "nomad") = departing := by
  have told := h.opening
  have here : (Scene.opening (project.session [Part.load .handlers departing]) departing
    departing).disk = departing := rfl
  generalize Scene.opening _ _ _ = opening at told here
  have begun : (opening.prepare .handlers 0).prepared 0 = some ⟨departing, old⟩ := by
    simp only [Scene.prepare, if_true, told.lasting.place, here, h.lists₀.read, Option.map_some]
  obtain ⟨synced, ran, onDisk, -, kept⟩ := h.taken (opening.prepare .handlers 0)
  have run : opening.run .handlers [.prepare 0, .write vacated, .sync departure, .apply 0] =
      synced.apply .handlers 0 := congrArg (Scene.apply .handlers · 0) ran
  obtain ⟨written, read, -⟩ := h.allowed (opening.prepare .handlers 0)
  refine ⟨_, run, ⟨⟨old, here ▸ h.lists₀⟩, written, read, trivial, trivial⟩, ?_⟩
  rw [Scene.apply, kept, begun]
  exact ⟨onDisk, rfl⟩

/-- A load begins, the file is written and taken over, and then the load ends: what the file said
before is held again, though each file was taken over after it was written last. -/
theorem older_snapshot_wins :
    ¬ ∀ {root : String} {engine : Engine} {extend : Bool} {clock : WallClock}
        {disk' disk₀ disk : FileTree} {project : Project},
      (load root engine extend clock).outcome? disk' = some project →
      ∀ (events : List Event) (part : Part) (home : String → List PathComponent)
        {old new : List (String × ConfigDocument)}, part.Lists root home disk₀ old →
        (∀ id, part.holding (project.session events) id = heldBy part.read? old id) →
        ∀ early late : List Move,
          let opening := Scene.opening (project.session events) disk₀ disk
          let after := opening.run part (early ++ late)
          Allowed part root home opening (early ++ late) → part.Lists root home after.disk new →
          -- nothing is written any more, and each file is read and then taken over
          (∀ disk, Move.write disk ∉ late) →
          (∀ file document, (file, document) ∈ new →
            (∃ path, Path.same file (after.disk.normalize path) ∧ Move.sync path ∈ late) ∨
              ∃ load, [Move.prepare load, Move.apply load].Sublist late) →
          ∀ id, part.holding after.project id =
            part.holding ((part.load after.disk).perform after.project) id := by
  intro all
  obtain ⟨project, old, new, h⟩ := vacating
  obtain ⟨disk, loaded⟩ := h.loaded
  have agrees := holding_load .handlers (Lasting.load loaded) h.lists₀.read
  obtain ⟨after, ran, allowed, onDisk, fromDisk⟩ := h.undone
  have told := h.opening.run allowed
  have written : (Scene.opening (project.session [Part.load .handlers departing]) departing
      departing).run .handlers ([.prepare 0, .write vacated] ++ [.sync departure, .apply 0]) =
    after := ran
  have lists : Part.Lists .handlers "/p" onlyHome after.disk new := by
    rw [onDisk]
    exact h.lists
  have taken : ∀ file document, (file, document) ∈ new →
      (∃ path, Path.same file (after.disk.normalize path) ∧
        Move.sync path ∈ [Move.sync departure, .apply 0]) ∨
      ∃ load, [Move.prepare load, .apply load].Sublist [Move.sync departure, .apply 0] :=
    fun file document mem =>
      .inl ⟨departure, by rw [onDisk]; exact h.alone file document mem, .head _⟩
  rw [ran] at told
  rw [← written] at lists taken
  have same := all loaded [Part.load .handlers departing] .handlers onlyHome h.lists₀ agrees
    [.prepare 0, .write vacated] [.sync departure, .apply 0] allowed lists (by simp) taken "nomad"
  rw [written, h.absent told.lasting onDisk, told.held, fromDisk, h.lists₀.contentAt] at same
  have offers := h.offers
  rw [show offered Handler.read? "nomad" _ = none from same] at offers
  cases offers

end ScriptHost.Project
