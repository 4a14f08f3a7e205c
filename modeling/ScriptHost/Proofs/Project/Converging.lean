import ScriptHost.Proofs.Project.Disks
import ScriptHost.Proofs.Project.Faithful
import ScriptHost.Proofs.Project.Sessions
import ScriptHost.Script.StandardActions
/-!
# Files taken over one by one

When some files of a directory were edited and each is taken over once, the order does not
matter, except for an id that went from one of them to another: that is lost if the latter was
taken over first.

**Results.**
* `synced_in_any_order`: what is held afterwards is what a full load holds, but for ids that were
  overtaken.
* `overtaken_id_is_lost`: an id that was overtaken is missing.
-/
namespace ScriptHost.Project

open Registry

/-! ## The two parts of a project -/

/-- What files of a project define. -/
inductive Part where
  | handlers
  | schedules

namespace Part

def Config : Part → Type
  | handlers => HandlerConfig
  | schedules => ScheduleConfig

def read? : (part : Part) → String → ConfigEntry → Option part.Config
  | handlers => Handler.read?
  | schedules => ScheduleTask.read?

def path (part : Part) (root : String) : String :=
  match part with
  | handlers => Path.join root handlersDirectory
  | schedules => Path.join root schedulesDirectory

/-- What the part holds under an id. -/
def holding : (part : Part) → Project → String → Option (Holding part.Config)
  | handlers, project => Handler.holding project.handlers project.graph
  | schedules, project => ScheduleTask.holding project.board.tasks

/-- What documents of the part make takes the place of what there was. -/
def replace (part : Part) (project : Project) (documents : List (String × ConfigDocument)) :
    Project × LoadReport :=
  match part with
  | handlers => project.replaceHandlers documents
  | schedules => project.replaceSchedules documents

/-- The part takes over the contents of one of its files. -/
def update (part : Part) (project : Project) (file : String) (document : ConfigDocument) :
    Project × SyncReport :=
  match part with
  | handlers => project.updateHandlers file document
  | schedules => project.updateSchedules file document

def load (part : Part) (disk : FileTree) : Event :=
  match part with
  | handlers => .operation (.loadHandlers disk)
  | schedules => .loadSchedules disk

def sync (part : Part) (disk : FileTree) (path : String) : Event :=
  match part with
  | handlers => .operation (.sync path disk)
  | schedules => .syncSchedules path disk

end Part

section

variable {root : String} {engine : Engine} {clock : WallClock} {project : Project} (part : Part)
  {disk : FileTree}

/-- A load puts what it reads in the place of what there was. -/
theorem load_perform {documents : List (String × ConfigDocument)}
    (read : (Disk.prepare (part.path project.root)).outcome? disk = some documents) :
    (part.load disk).perform project = (part.replace project documents).1 := by
  cases part with
  | handlers =>
    change (Operation.loadHandlers disk).perform project = (project.replaceHandlers documents).1
    have step : (Operation.loadHandlers disk).step? project = some (.replace documents) :=
      congrArg (Option.map Step.replace) read
    rw [Operation.perform_eq, step]
    rfl
  | schedules =>
    change (project.loadSchedules.outcome? disk).elim project (·.1) =
      (project.replaceSchedules documents).1
    have made : project.loadSchedules.outcome? disk = some (project.replaceSchedules documents) :=
      (Disk.outcome?_map ..).trans (congrArg (Option.map project.replaceSchedules) read)
    rw [made]
    rfl

/-- Taking over a file is to update by what it reads. -/
theorem sync_perform {path file : String} {document : ConfigDocument}
    (read : (Disk.readConfig path).outcome? disk = some (file, document)) :
    (part.sync disk path).perform project = (part.update project file document).1 := by
  cases part with
  | handlers =>
    change (Operation.sync path disk).perform project = (project.updateHandlers file document).1
    have step : (Operation.sync path disk).step? project = some (.take (.handlers file document)) :=
      congrArg (Option.map fun r : String × ConfigDocument => Step.take (.handlers r.1 r.2)) read
    rw [Operation.perform_eq, step]
    rfl
  | schedules =>
    change ((project.syncSchedules path).outcome? disk).elim project (·.1) =
      (project.updateSchedules file document).1
    have made : (project.syncSchedules path).outcome? disk =
        some (project.updateSchedules file document) :=
      (Disk.outcome?_map ..).trans
        (congrArg (Option.map fun r : String × ConfigDocument =>
          project.updateSchedules r.1 r.2) read)
    rw [made]
    rfl

variable (lasting : Lasting root engine clock project)

include lasting

theorem holding_replace (documents : List (String × ConfigDocument)) (id : String) :
    part.holding (part.replace project documents).1 id = heldBy part.read? documents id := by
  cases part with
  | handlers =>
    obtain ⟨graphs, steady⟩ := lasting.steady
    exact Handler.load_held steady.inOrder steady.fresh documents id
  | schedules => exact ScheduleTask.load_held project.board.tasks project.board.env documents id

theorem holding_update (file : String) (document : ConfigDocument) (id : String) :
    part.holding (part.update project file document).1 id =
      syncAt part.read? id (part.holding project id) (Path.components file, document) := by
  cases part with
  | handlers =>
    obtain ⟨graphs, steady⟩ := lasting.steady
    exact (Handler.faithful.sync_holdings file document steady.inOrder).2 id
  | schedules =>
    exact (ScheduleTask.faithful.sync_holdings file document lasting.orderly.tended).2 id

theorem holding_load {documents : List (String × ConfigDocument)}
    (read : (Disk.prepare (part.path root)).outcome? disk = some documents) (id : String) :
    part.holding ((part.load disk).perform project) id = heldBy part.read? documents id := by
  rw [load_perform part (lasting.place ▸ read)]
  exact holding_replace part lasting documents id

/-- Taking over a file changes what is held under each id by itself. -/
theorem holding_sync {path file : String} {document : ConfigDocument}
    (read : (Disk.readConfig path).outcome? disk = some (file, document)) (id : String) :
    part.holding ((part.sync disk path).perform project) id =
      syncAt part.read? id (part.holding project id) (Path.components file, document) := by
  rw [sync_perform part read]
  exact holding_update part lasting file document id

theorem holding_syncs {order : List String} (read : ∀ path ∈ order,
      (Disk.readConfig path).outcome? disk = some (disk.normalize path, (Disk.fileAt disk path).2))
    (id : String) :
    part.holding (project.session (order.map (part.sync disk))) id =
      (order.map (Disk.fileAt disk)).foldl (syncAt part.read? id) (part.holding project id) := by
  induction order generalizing project with
  | nil => rfl
  | cons path rest ih =>
    have next := lasting.perform (part.sync disk path)
    have first := holding_sync part lasting (read path (.head _)) id
    rw [List.map_cons, List.map_cons, List.foldl_cons]
    exact (ih next fun other mem => read other (.tail _ mem)).trans (by rw [first]; rfl)

end

/-! ## In any order -/

/-- Whenever a part of a project holds what its directory had: after some of the directory's files
were edited and each was taken over once, in whatever order, what it holds under an id is what a
full load would hold, unless the id went from one of them to another that was taken over first;
then it holds nothing. An entry that cannot be read is left out of account. -/
theorem synced_in_any_order {root : String} {engine : Engine} {extend : Bool} {clock : WallClock}
    {disk' disk₀ disk : FileTree} {project : Project}
    (loaded : (load root engine extend clock).outcome? disk' = some project) (events : List Event)
    (part : Part) {old new : List (String × ConfigDocument)} {order : List String}
    (read₀ : (Disk.prepare (part.path root)).outcome? disk₀ = some old)
    (read : (Disk.prepare (part.path root)).outcome? disk = some new)
    (unshared₀ : Unshared old) (unshared : Unshared new)
    (edit : Disk.Edit (part.path root) old new disk order)
    (agrees : ∀ id, part.holding (project.session events) id =
      part.holding ((part.load disk₀).perform (project.session events)) id)
    {id : String} (readable : ∀ file document entry, (file, document) ∈ new →
      definition? document id = some entry → (part.read? id entry).isSome) :
    let before := project.session events
    let synced := before.session (order.map (part.sync disk))
    let full := (part.load disk).perform before
    let overtaken := Overtaken (part.holding before id) (part.holding full id)
      (order.map fun path => Path.components (disk.normalize path))
    (overtaken → part.holding synced id = none) ∧
      (¬ overtaken → part.holding synced id = part.holding full id) := by
  intro before synced full overtaken
  have lasting := (Lasting.load loaded).session events
  have held : part.holding before id = heldBy part.read? old id :=
    (agrees id).trans (holding_load part lasting read₀ id)
  have now : part.holding full id = heldBy part.read? new id := holding_load part lasting read id
  have after : part.holding synced id =
      (order.map (Disk.fileAt disk)).foldl (syncAt part.read? id) (part.holding before id) :=
    holding_syncs part lasting (fun path mem => edit.read_file read mem) id
  have said := (edit.edited read).said unshared₀ unshared (Disk.consistent_of_prepare read₀)
    (Disk.consistent_of_prepare read) readable
  have places : (order.map (Disk.fileAt disk)).map (·.1) =
      order.map fun path => Path.components (disk.normalize path) := by
    rw [List.map_map]
    rfl
  have result := said.foldl_syncAt
  rw [places, ← held, ← now, ← after] at result
  exact result

/-! ## A handler that moves -/

/-- A project with one file of handlers, which has one handler. -/
def nomad (file : String) : FileTree := .directory [("p", .directory [
  ("handlers", .directory [(file, textFile ["[nomad]", "handle = \"print *x\""])]),
  ("schedules", .directory [])])]

def departing : FileTree := nomad "a.toml"

def arrived : FileTree := nomad "b.toml"

def departure : String := "/p/handlers/a.toml"

def arrival : String := "/p/handlers/b.toml"

/-- What can be checked of edited files if all files of a directory are among them. -/
def rewrites (disk : FileTree) (order : List String) (old new : List (String × ConfigDocument)) :
    Bool :=
  let places := order.map fun path => Path.components (disk.normalize path)
  let undivided (documents : List (String × ConfigDocument)) : Bool :=
    documents.all fun e => documents.all fun other => Path.same e.1 other.1 ||
      e.2.keys.all fun id => (definition? other.2 id).isNone
  disk.contains (Part.path .handlers "/p") && decide places.Nodup &&
    order.all (fun path => new.any (fun e => Path.same e.1 (disk.normalize path)) ||
      Disk.presenceOf? (disk.find (disk.normalize path)) == some false) &&
    (old ++ new).all (fun e => order.any fun path => Path.same e.1 (disk.normalize path)) &&
    undivided old && undivided new

theorem unshared_of_all {documents : List (String × ConfigDocument)}
    (all : (documents.all fun e => documents.all fun other => Path.same e.1 other.1 ||
      e.2.keys.all fun id => (definition? other.2 id).isNone) = true) : Unshared documents := by
  intro file document file' document' id mem mem' defines defines'
  have pair := List.all_eq_true.1 (List.all_eq_true.1 all _ mem) _ mem'
  rcases (Bool.or_eq_true_iff ..).1 pair with same | none
  · exact same
  · have listed : id ∈ document.keys := by
      rw [Table.mem_keys]
      by_contra absent
      rw [Option.not_isSome_iff_eq_none] at absent
      simp [definition?, absent] at defines
    have absent := List.all_eq_true.1 none id listed
    rw [Option.isNone_iff_eq_none] at absent
    rw [absent] at defines'
    cases defines'

theorem edit_of_rewrites {disk : FileTree} {order : List String}
    {old new : List (String × ConfigDocument)} (checked : rewrites disk order old new = true) :
    Disk.Edit (Part.path .handlers "/p") old new disk order ∧ Unshared old ∧ Unshared new := by
  simp only [rewrites, Bool.and_eq_true, decide_eq_true_eq] at checked
  obtain ⟨⟨⟨⟨⟨stands, apart⟩, present⟩, all⟩, unshared⟩, unshared'⟩ := checked
  have listed {e : String × ConfigDocument} (mem : e ∈ old ++ new)
      (away : ∀ path ∈ order, ¬ Path.same e.1 (disk.normalize path)) : False := by
    obtain ⟨path, mem', same⟩ := List.any_eq_true.1 (List.all_eq_true.1 all e mem)
    exact away path mem' same
  refine ⟨⟨stands, apart, fun path mem => ?_,
    fun file document mem away => (listed (List.mem_append_left _ mem) away).elim,
    fun file document mem away => (listed (List.mem_append_right _ mem) away).elim⟩,
    unshared_of_all unshared, unshared_of_all unshared'⟩
  rcases (Bool.or_eq_true_iff ..).1 (List.all_eq_true.1 present path mem) with there | gone
  · obtain ⟨e, mem', same⟩ := List.any_eq_true.1 there
    exact .inl ⟨e.1, e.2, mem', same⟩
  · exact .inr (Disk.missing_of_absent (eq_of_beq gone))

/-- The journey of the handler: a project that was loaded while it was in one file, and the files
before and after it went to the other. -/
structure Journey (order : List String) (project : Project)
    (old new : List (String × ConfigDocument)) : Prop where
  loaded : (Project.load "/p" StandardActions.engine false (.standing 0)).outcome? departing =
    some project
  read₀ : (Disk.prepare (Part.path .handlers "/p")).outcome? departing = some old
  read : (Disk.prepare (Part.path .handlers "/p")).outcome? arrived = some new
  edit : Disk.Edit (Part.path .handlers "/p") old new arrived order
  unshared₀ : Unshared old
  unshared : Unshared new
  agrees : ∀ id, Part.holding .handlers (project.session [Part.load .handlers departing]) id =
    Part.holding .handlers ((Part.load .handlers departing).perform
      (project.session [Part.load .handlers departing])) id
  readable : ∀ file document entry, (file, document) ∈ new →
    definition? document "nomad" = some entry → (Handler.read? "nomad" entry).isSome
  /-- A full load finds the handler where it is now. -/
  arrives : (Part.holding .handlers ((Part.load .handlers arrived).perform
    (project.session [Part.load .handlers departing])) "nomad").isSome

/-- What is held of the handler when the files were taken over in an order. -/
def Journey.end (order : List String) (project : Project) : Option (Holding HandlerConfig) :=
  Part.holding .handlers ((project.session [Part.load .handlers departing]).session
    (order.map (Part.sync .handlers arrived))) "nomad"

theorem journey {order : List String} {kept : Bool}
    (checked : ((Project.load "/p" StandardActions.engine false (.standing 0)).outcome?
      departing).any (fun project =>
        ((Disk.prepare (Part.path .handlers "/p")).outcome? departing).any fun old =>
          ((Disk.prepare (Part.path .handlers "/p")).outcome? arrived).any fun new =>
            rewrites arrived order old new && (new.all fun e => (definition? e.2 "nomad").all
              fun entry => (Handler.read? "nomad" entry).isSome) &&
            (Part.holding .handlers ((Part.load .handlers arrived).perform
              (project.session [Part.load .handlers departing])) "nomad").isSome &&
            (Journey.end order project).isSome == kept) = true) :
    ∃ project old new, Journey order project old new ∧
      (Journey.end order project).isSome = kept := by
  obtain ⟨project, loaded, checked⟩ := (Option.any_eq_true _ _).1 checked
  obtain ⟨old, read₀, checked⟩ := (Option.any_eq_true _ _).1 checked
  obtain ⟨new, read, checked⟩ := (Option.any_eq_true _ _).1 checked
  simp only [Bool.and_eq_true, beq_iff_eq] at checked
  obtain ⟨⟨⟨rewritten, readable⟩, arrives⟩, ends⟩ := checked
  obtain ⟨edit, unshared₀, unshared⟩ := edit_of_rewrites rewritten
  have lasting := Lasting.load loaded
  have agrees (id : String) := (holding_load .handlers lasting read₀ id).trans
    (holding_load .handlers (lasting.perform (Part.load .handlers departing)) read₀ id).symm
  refine ⟨project, old, new, ⟨loaded, read₀, read, edit, unshared₀, unshared, agrees,
    fun file document entry mem defined => ?_, arrives⟩, ends⟩
  have all := List.all_eq_true.1 readable _ mem
  rwa [defined, Option.all_some] at all

/-- Taken over in the order of its journey, the handler arrives. -/
theorem nomad_arrives : ∃ project old new, Journey [departure, arrival] project old new ∧
    (Journey.end [departure, arrival] project).isSome ∧
    Journey.end [departure, arrival] project = Part.holding .handlers
      ((Part.load .handlers arrived).perform (project.session [Part.load .handlers departing]))
      "nomad" := by
  obtain ⟨project, old, new, h, ends⟩ := @journey [departure, arrival] true (by decide +kernel)
  obtain ⟨lost, stays⟩ := synced_in_any_order h.loaded [Part.load .handlers departing] .handlers
    h.read₀ h.read h.unshared₀ h.unshared h.edit h.agrees h.readable
  refine ⟨project, old, new, h, ends, stays fun overtaken => ?_⟩
  have nothing : Journey.end [departure, arrival] project = none := lost overtaken
  rw [nothing] at ends
  cases ends

/-- Not in every order does a project come to hold what a full load holds: the handler is lost if
the file that it went to is taken over first. -/
theorem overtaken_id_is_lost :
    ¬ ∀ {root : String} {engine : Engine} {extend : Bool} {clock : WallClock}
        {disk' disk₀ disk : FileTree} {project : Project},
      (load root engine extend clock).outcome? disk' = some project →
      ∀ (events : List Event) (part : Part) {old new : List (String × ConfigDocument)}
        {order : List String},
        (Disk.prepare (part.path root)).outcome? disk₀ = some old →
        (Disk.prepare (part.path root)).outcome? disk = some new →
        Unshared old → Unshared new → Disk.Edit (part.path root) old new disk order →
        (∀ id, part.holding (project.session events) id =
          part.holding ((part.load disk₀).perform (project.session events)) id) →
        ∀ {id : String}, (∀ file document entry, (file, document) ∈ new →
            definition? document id = some entry → (part.read? id entry).isSome) →
          part.holding ((project.session events).session (order.map (part.sync disk))) id =
            part.holding ((part.load disk).perform (project.session events)) id := by
  intro all
  obtain ⟨project, old, new, h, ends⟩ := @journey [arrival, departure] false (by decide +kernel)
  have same := all h.loaded [Part.load .handlers departing] .handlers h.read₀ h.read h.unshared₀
    h.unshared h.edit h.agrees h.readable
  have arrives := h.arrives
  rw [← same] at arrives
  cases ends.symm.trans arrives

end ScriptHost.Project
