import ScriptHost.Proofs.Project.Accounting
import ScriptHost.Proofs.Project.Listing
/-!
# Who defines an id

After a load an id stands for what the first file says of it that says something valid, in the order
of the paths. That does not depend on what there was before the load.

**Results.**
* `Handler.shown`, `ScheduleTask.shown`: both kinds can be seen.
* `first_valid_wins`: what handlers or schedules are loaded from the files of a directory, and what
  the report says of every entry.
-/
namespace ScriptHost

open DispatchGraph Registry

/-! ## Both kinds -/

namespace Handler

def view (g : DispatchGraph) (k : Key .handler) : Option (ConfigEntry × HandlerConfig) :=
  (g.handlers.get? k).map fun handler => (handler.entry, handler.config)

variable {g g' : DispatchGraph}

theorem stays_of_spares (spares : ∀ k, Spares k g g') : StaysShown view g g' := by
  intro k x seen
  obtain ⟨handler, found, is⟩ := Option.map_eq_some_iff.1 seen
  obtain ⟨bound, found'⟩ := (spares k).handler handler found
  rw [view, found', ← is]
  rfl

/-- A handler keeps its entry and its configuration while others are made. -/
theorem shown : Shown kind read? view where
  failed made := by
    rcases create_cases made with ⟨-, rfl, problem, unread⟩ | ⟨-, some⟩
    · exact ⟨by rw [read?, unread]; rfl, .refl _⟩
    · cases some
  created made := by
    rcases create_cases made with ⟨none, -⟩ | ⟨created, isNext⟩
    · cases none
    cases isNext
    obtain ⟨config, middle, read, touched, follows⟩ := create_follows created
    obtain ⟨bound, found⟩ := (follows _).handler _ ((touched.handlers _).trans (if_pos rfl))
    refine ⟨config, by rw [read?, read]; rfl, by rw [view, found]; rfl, ?_⟩
    exact stays_of_spares fun k => .create created
  loaded ids g := stays_of_spares fun k => .of_framed (.recompileEach ..)
  loadedEach k g := ⟨.refl g, fun _ seen => seen⟩

end Handler

namespace ScheduleTask

def view (_ : ScheduleEnvironment) (task : ScheduleTask) : Option (ConfigEntry × ScheduleConfig) :=
  some (task.entry, task.config)

theorem shown : Shown kind read? view where
  failed {env id entry env'} made := by
    obtain ⟨rfl, nothing⟩ := create_cases made
    refine ⟨?_, .refl _⟩
    cases read : ScheduleConfig.ofEntry id entry with
    | error problem => rw [read?, read]; rfl
    | ok config =>
      have created : create env' id entry = .ok _ := create_ok_iff.2 ⟨config, read, rfl⟩
      simp [kind, created] at made
  created made := by
    obtain ⟨rfl, ⟨⟨⟩⟩ | ⟨_, ⟨⟩, created⟩⟩ := create_cases made
    obtain ⟨config, read, rfl⟩ := create_ok_iff.1 created
    exact ⟨config, by rw [read?, read]; rfl, by rw [view, recompile_eq]; rfl, .refl _⟩
  loaded ids env := .refl env
  loadedEach task env := by
    refine ⟨fun _ _ seen => seen, fun x seen => ?_⟩
    obtain ⟨timer, eq⟩ := task.startIfActive_fst env
    change view _ (task.startIfActive env).1 = some x
    rw [eq]
    exact seen

end ScheduleTask

/-! ## Loads -/

namespace Project

namespace Part

def ids : Part → Project → List String
  | handlers, project => project.handlers.keys
  | schedules, project => project.board.tasks.keys

/-- The file, the entry and the configuration of what an id stands for. -/
def defined : (part : Part) → Project → String → Option (String × ConfigEntry × part.Config)
  | handlers, project, id => (project.handlers.get? id).bind fun owned =>
    (Handler.view project.graph owned.entity).map fun x => (owned.file, x)
  | schedules, project, id => (project.board.tasks.get? id).bind fun owned =>
    (ScheduleTask.view project.board.env owned.entity).map fun x => (owned.file, x)

def loadFiles : Part → Project → Disk (Project × LoadReport)
  | handlers, project => project.loadHandlers
  | schedules, project => project.loadSchedules

end Part

variable {part : Part} {project : Project}

/-- What is in place of what there was, and what is reported of it. -/
theorem replace_accounts (part : Part) (project : Project)
    (documents : List (String × ConfigDocument)) :
    let r := part.replace project documents
    r.2 = tally (outcomes part.read? documents) ∧ (part.ids r.1).length = r.2.loaded ∧
      (∀ id, id ∈ part.ids r.1 ↔ (firstOf part.read? id (definitions documents)).isSome) ∧
      ∀ id x config, firstOf part.read? id (definitions documents) = some (x, config) →
        part.defined r.1 id = some (x.file, x.entry, config) := by
  cases part with
  | handlers =>
    have tallied := Handler.shown.load_accounts project.handlers documents project.graph
    refine ⟨tallied.report, (List.length_map _).trans tallied.size, fun id => ?_,
      fun id x config first => tallied.agrees.defines first⟩
    exact (Table.mem_keys ..).trans (Bool.eq_iff_iff.1 (tallied.agrees.known id))
  | schedules =>
    have tallied := ScheduleTask.shown.load_accounts project.board.tasks documents project.board.env
    refine ⟨tallied.report, (List.length_map _).trans tallied.size, fun id => ?_,
      fun id x config first => tallied.agrees.defines first⟩
    exact (Table.mem_keys ..).trans (Bool.eq_iff_iff.1 (tallied.agrees.known id))

theorem gives_loadFiles {disk : FileTree} {documents : List (String × ConfigDocument)}
    (read : Disk.Gives (Disk.prepare (part.path project.root)) disk (some documents)) :
    (part.loadFiles project).run.run disk = (.ok (part.replace project documents), disk) := by
  obtain ⟨made, eq, is⟩ := read
  obtain rfl := toOption_eq_some.1 is
  cases part with
  | handlers => exact Disk.run_bind_ok eq
  | schedules => exact Disk.run_bind_ok eq

/-- If all configuration files of a part's directory are documents, the part is loaded from them,
whatever there was before: an id stands for what the first file says of it, in the order of the
paths, that says something valid. Every other entry is in conflict with one before, disabled, or
fails, as `outcome` says, and all entries are accounted for. -/
theorem first_valid_wins (part : Part) (project : Project) {disk : FileTree} {home : List String}
    {entries : List (String × FileNode)} (proper : disk.Proper)
    (led : disk.resolve (Path.components (part.path project.root)) = .ok home)
    (stands : disk.get? home = some (.directory entries))
    (parse : ∀ name content, (name, FileNode.file content) ∈ entries → isConfigName name →
      (FileNode.file content).document?.isSome) :
    ∃ documents after report, Disk.Documents home entries documents ∧
      (part.loadFiles project).run.run disk = (.ok (after, report), disk) ∧
      (∀ id, id ∈ part.ids after ↔ ∃ file document entry, (file, document) ∈ documents ∧
        definition? document id = some entry ∧ (part.read? id entry).isSome) ∧
      (∀ id ∈ part.ids after, ∃ before file document later entry config,
        documents = before ++ (file, document) :: later ∧
        definition? document id = some entry ∧ part.read? id entry = some config ∧
        (∀ other ∈ before, ∀ entry, definition? other.2 id = some entry →
          part.read? id entry = none) ∧
        part.defined after id = some (file, entry, config)) ∧
      report = tally (outcomes part.read? documents) ∧
      report.loaded = (part.ids after).length ∧
      report.loaded + report.conflicts + report.failed +
          ((topEntries documents).filter fun e =>
            (ConfigEntry.ofValue? e.2.2).any ConfigEntry.isDisabled).length =
        (topEntries documents).length := by
  obtain ⟨documents, are, read⟩ := Disk.gives_prepare ⟨disk, proper⟩ led stands parse
  obtain ⟨reported, size, known, defined⟩ := replace_accounts part project documents
  refine ⟨documents, (part.replace project documents).1, (part.replace project documents).2, are,
    gives_loadFiles read, fun id => (known id).trans firstOf_isSome_iff, fun id listed => ?_,
    reported,
    size.symm, ?_⟩
  · obtain ⟨⟨x, config⟩, first⟩ := Option.isSome_iff_exists.1 ((known id).1 listed)
    obtain ⟨before, document, later, split, here, valid, unread⟩ := firstOf_definitions first
    exact ⟨before, x.file, document, later, x.entry, config, split, here, valid, unread,
      defined id x config first⟩
  · rw [reported, ← count_disabled (topEntries documents) [],
      ← length_outcomesBehind (topEntries documents) []]
    exact count_all (outcomes part.read? documents)

/-- In this file `bell` is defined badly, `gong` is switched off, and `motto` is no table. -/
def firstPeal : FileNode := textFile ["motto = \"vivos voco\"", "[bell]", "priority = \"high\"",
  "[gong]", "disable = true", "[horn]"]

def secondPeal : FileNode := textFile ["[bell]", "[gong]", "[horn]"]

def belfry : FileTree := .directory [("p", .directory [("handlers", .directory [
  ("b.toml", secondPeal), ("a.toml", firstPeal)])])]

theorem belfry_proper : belfry.Proper := by
  refine .directory (by decide) (by decide +kernel) (List.forall_mem_singleton.2 ?_)
  refine .directory (by decide) (by decide +kernel) (List.forall_mem_singleton.2 ?_)
  refine .directory (by decide) (by decide +kernel) ?_
  simp only [List.forall_mem_cons]
  exact ⟨.file _, .file _, by simp⟩

def definesBell (node : FileNode) : Bool :=
  (node.document?.bind (definition? · "bell")).any fun entry => (Handler.read? "bell" entry).isSome

theorem first_valid_wins_belfry : ∃ after report entry config, (Part.loadFiles .handlers
      (blank "/p" StandardActions.engine (.standing 0) {})).run.run belfry =
        (.ok (after, report), belfry) ∧
      Part.defined .handlers after "bell" = some ("p/handlers/b.toml", entry, config) := by
  have listed : ∀ name content, (name, FileNode.file content) ∈
      [("b.toml", secondPeal), ("a.toml", firstPeal)] →
      name = "b.toml" ∧ .file content = secondPeal ∨
        name = "a.toml" ∧ .file content = firstPeal := by
    simp
  have parse : ∀ name content, (name, FileNode.file content) ∈
      [("b.toml", secondPeal), ("a.toml", firstPeal)] → isConfigName name →
      (FileNode.file content).document?.isSome := by
    intro name content mem _
    rcases listed name content mem with ⟨-, is⟩ | ⟨-, is⟩ <;> rw [is] <;> decide +kernel
  obtain ⟨documents, after, report, are, ran, known, wins, -⟩ :=
    @first_valid_wins .handlers (blank "/p" StandardActions.engine (.standing 0) {}) belfry
      ["p", "handlers"] _ belfry_proper (by decide +kernel) rfl parse
  -- the second file defines it well, so it is there
  have second : definesBell secondPeal := by decide +kernel
  obtain ⟨entry, defined, valid⟩ := (Option.any_eq_true ..).1 second
  obtain ⟨document, is, defined⟩ := Option.bind_eq_some_iff.1 defined
  have present : "bell" ∈ Part.ids .handlers after := (known "bell").2
    ⟨_, document, entry, (are.mem_iff _ _).2 ⟨"b.toml", _, .head _, by decide +kernel, rfl, is⟩,
      defined, valid⟩
  -- and the first does not
  obtain ⟨before, file, document, later, entry, config, split, defined, valid, -, stands⟩ :=
    wins "bell" present
  obtain ⟨name, content, mem, -, rfl, is⟩ :=
    (are.mem_iff file document).1 (split ▸ List.mem_append_right _ (.head _))
  refine ⟨after, report, entry, config, ran, ?_⟩
  rcases listed name content mem with ⟨rfl, -⟩ | ⟨-, same⟩
  · exact stands
  · have first : definesBell firstPeal = false := by decide +kernel
    have readable : Handler.read? "bell" entry = some config := valid
    rw [definesBell, ← same, is, Option.bind_some, defined, Option.any_some, readable] at first
    cases first

end Project
end ScriptHost
