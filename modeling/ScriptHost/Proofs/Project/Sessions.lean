import ScriptHost.Proofs.Dispatch.Sparing
import ScriptHost.Proofs.Project.Runs
import ScriptHost.Proofs.Schedule.Tasks
/-!
# Sessions of a project

A session is all that happens to a loaded project: operations on its files and handlers, and
besides what becomes of its schedules, what is run and how time goes on.

**Steps of a board.** Of every event the board of schedules sees one `Step` at most: its tasks
are replaced, one file is taken over, all are let go, started or stopped, something else is
printed, or time goes on.

**Results.**
* `board_perform`: what an event does to the board is its step.
* `ScheduleBoard.Orderly.perform`, `ScheduleBoard.Step.ended`: what every step keeps, and which
  steps set the timer of a task that is not to run.
* `load_iff`, `load_board`: what a project is that was loaded.
* `Lasting.load`, `Lasting.session`: what holds of a project all through a session.
-/
namespace ScriptHost

/-! ## Steps of a board -/

/-- What may happen to a board of schedules. -/
inductive ScheduleBoard.Step where
  /-- Its tasks are made anew from documents, under a common pattern of dates. -/
  | replace (dateFormat : String) (documents : List (String × ConfigDocument))
  /-- The contents of a file are taken over. -/
  | sync (file : String) (document : ConfigDocument)
  | clear
  | activate
  | deactivate
  /-- Something else prints. -/
  | print (screen : Screen)
  | moveTo (moment : Nat)

namespace ScheduleBoard

variable {board : ScheduleBoard} {id : String}

def Step.perform (step : Step) (board : ScheduleBoard) : ScheduleBoard :=
  match step with
  | .replace dateFormat documents =>
    let l := board.tasks.load ScheduleTask.kind documents { board.env with dateFormat }
    { tasks := l.registry, env := l.surroundings }
  | .sync file document =>
    let y := board.tasks.sync ScheduleTask.kind file document board.env
    { tasks := y.registry, env := y.surroundings }
  | .clear =>
    let (tasks, env) := board.tasks.clear ScheduleTask.kind board.env
    { tasks, env }
  | .activate => board.activate
  | .deactivate => board.deactivate
  | .print screen => { board with env.screen := screen }
  | .moveTo moment => (board.moveTo moment).1

/-- A board on which every task is what its entry says, for one engine and one clock. -/
structure Orderly (engine : Engine) (clock : WallClock) (board : ScheduleBoard) : Prop where
  engine : board.env.engine = engine
  clock : board.env.clock = clock
  tended : ScheduleTask.Tended board.env.dateFormat board.tasks

theorem Orderly.of_continues {engine : Engine} {clock : WallClock} {env : ScheduleEnvironment}
    {after : ScheduleBoard} (continues : env.Continues after.env) (sameEngine : env.engine = engine)
    (sameClock : env.clock = clock) (tended : ScheduleTask.Tended env.dateFormat after.tasks) :
    Orderly engine clock after where
  engine := continues.engine.trans sameEngine
  clock := continues.clock.trans sameClock
  tended := continues.dateFormat ▸ tended

theorem Orderly.perform {engine : Engine} {clock : WallClock} (h : Orderly engine clock board)
    (step : Step) : Orderly engine clock (step.perform board) := by
  cases step with
  | replace dateFormat documents =>
    exact .of_continues (ScheduleTask.continues_load ..) h.engine h.clock
      (ScheduleTask.load_tended board.tasks documents { board.env with dateFormat })
  | sync file document =>
    obtain ⟨continues, tended⟩ := ScheduleTask.sync_keeps h.tended file document
    exact .of_continues continues h.engine h.clock tended
  | clear =>
    refine ⟨?_, ?_, fun _ _ => nofun⟩
    · exact (congrArg _ (ScheduleTask.retireAll_eq ..)).trans h.engine
    · exact (congrArg _ (ScheduleTask.retireAll_eq ..)).trans h.clock
  | activate =>
    simp only [Step.perform, activate_eq]
    exact ⟨h.engine, h.clock, h.tended.map fun task => task.started_fst ..⟩
  | deactivate =>
    simp only [Step.perform, deactivate_eq]
    exact ⟨h.engine, h.clock, h.tended.map fun task => ⟨_, task.busyUntil, rfl⟩⟩
  | print screen => exact ⟨h.engine, h.clock, h.tended⟩
  | moveTo moment =>
    obtain ⟨screen, -, eq⟩ := board.moveTo_eq moment
    simp only [Step.perform, eq]
    exact ⟨h.engine, h.clock, h.tended.map fun task => task.runTo_fst ..⟩

/-- The task of an id, if there is one, has no timer. -/
def Ended (board : ScheduleBoard) (id : String) : Prop :=
  ∀ owned, board.tasks.get? id = some owned → owned.entity.timer = .ended

theorem Ended.map {f : ScheduleTask → ScheduleTask} (h : board.Ended id)
    (ended : ∀ task, task.timer = .ended → (f task).timer = .ended) {env : ScheduleEnvironment} :
    Ended { env, tasks := board.tasks.map fun _ owned => ⟨owned.file, f owned.entity⟩ } id := by
  intro owned found
  rw [Table.get?_map, Option.map_eq_some_iff] at found
  obtain ⟨before, found, rfl⟩ := found
  exact ended _ (h before found)

/-- A step after which tasks are not to run leaves a task without a timer that had none, unless
a file gives it other times. -/
theorem Step.ended {engine : Engine} {clock : WallClock} (h : Orderly engine clock board)
    {step : Step} (stopped : (step.perform board).env.active = false)
    (ended : board.env.active = false → board.Ended id)
    (same : board.env.active = false → ∀ file document, step = .sync file document →
      ¬ ScheduleTask.Retimed board.tasks file document id) :
    (step.perform board).Ended id := by
  cases step with
  | replace dateFormat documents =>
    have continues :=
      ScheduleTask.continues_load board.tasks documents { board.env with dateFormat }
    have stopped : { board.env with dateFormat }.active = false := by
      rw [← continues.active]
      exact stopped
    intro owned found
    rw [Step.perform, (ScheduleTask.load_stopped stopped ..).1] at found
    exact (ScheduleTask.fromFiles_keeps _ documents).2.2 id owned found
  | sync file document =>
    have stopped : board.env.active = false := by
      rw [← (ScheduleTask.sync_keeps h.tended file document).1.active]
      exact stopped
    exact ScheduleTask.sync_stopped stopped h.tended (same stopped file document rfl)
      (ended stopped)
  | clear => exact fun _ found => by cases found
  | activate =>
    rw [Step.perform, activate_eq] at stopped
    cases stopped
  | deactivate =>
    intro owned found
    rw [Step.perform, deactivate_eq, Table.get?_map, Option.map_eq_some_iff] at found
    obtain ⟨before, -, rfl⟩ := found
    rfl
  | print screen => exact ended stopped
  | moveTo moment =>
    obtain ⟨screen, -, eq⟩ := board.moveTo_eq moment
    rw [Step.perform, eq] at stopped ⊢
    refine (ended stopped).map (f := fun task => (task.runTo board.env.clock moment).1)
      fun task ended => ?_
    rw [ScheduleTask.runTo_of_ended ended]
    exact ended

/-- Time that goes on changes nothing but the screen if no task has a timer. -/
theorem moveTo_of_ended (ended : ∀ id, board.Ended id) (moment : Nat) :
    ∃ screen, screen.now = moment ∧
      (board.moveTo moment).1 = { board with env.screen := screen } := by
  obtain ⟨screen, now, eq⟩ := board.moveTo_eq moment
  refine ⟨screen, now, ?_⟩
  have same : board.tasks.map (fun _ owned =>
      ⟨owned.file, (owned.entity.runTo board.env.clock moment).1⟩) = board.tasks := by
    refine Table.ext_get? fun id => ?_
    rw [Table.get?_map]
    cases found : board.tasks.get? id with
    | none => rfl
    | some owned =>
      rw [Option.map_some, ScheduleTask.runTo_of_ended (ended id owned found)]
  rw [eq, same]

/-- Tasks without timers that are started at a moment. -/
theorem activate_moveTo_of_ended (ended : ∀ id, board.Ended id) (moment : Nat) :
    let after := (board.moveTo moment).1.activate
    after.tasks = board.tasks.map (fun _ owned =>
        ⟨owned.file, owned.entity.started (board.env.clock.read moment) moment⟩) ∧
      after.env.timersSet = board.env.timersSet ++
        ScheduleTask.timersOf board.tasks (board.env.clock.read moment) := by
  intro after
  obtain ⟨screen, rfl, eq⟩ := moveTo_of_ended ended moment
  have started : after = _ := activate_eq _
  rw [started, eq]
  exact ⟨rfl, rfl⟩

end ScheduleBoard

namespace Project

/-! ## Events -/

/-- What may happen in a session. -/
inductive Event where
  /-- Changes of files, and what concerns handlers. -/
  | operation (op : Operation)
  /-- All schedules are loaded anew. -/
  | loadSchedules (disk : FileTree)
  /-- One file of schedules is taken over, whatever the settings say. -/
  | syncSchedules (path : String) (disk : FileTree)
  /-- All schedules are let go. -/
  | clearSchedules
  | start
  | shutdown
  /-- A dispatcher is run. -/
  | fire (dispatcher : String) (context : Context)
  | moveTo (moment : Nat)

def Event.perform (event : Event) (project : Project) : Project :=
  match event with
  | .operation op => op.perform project
  | .loadSchedules disk => (project.loadSchedules.outcome? disk).elim project (·.1)
  | .syncSchedules path disk => ((project.syncSchedules path).outcome? disk).elim project (·.1)
  | .clearSchedules => project.clearSchedules
  | .start => project.start
  | .shutdown => project.shutdown
  | .fire dispatcher context => (project.fire dispatcher context).1
  | .moveTo moment => (project.moveTo moment).1

def session (project : Project) (events : List Event) : Project :=
  events.foldl (fun project event => event.perform project) project

/-- What an event does to the board of a project, if anything. -/
def Event.boardStep? (event : Event) (project : Project) : Option ScheduleBoard.Step :=
  match event with
  | .operation op =>
    match op.step? project with
    | some (.take (.everything settings _ schedules)) =>
      some (.replace settings.dateFormat schedules)
    | some (.take (.schedules file document)) => some (.sync file document)
    | _ => none
  | .loadSchedules disk =>
    ((Disk.prepare project.schedulesPath).outcome? disk).map (.replace project.board.env.dateFormat)
  | .syncSchedules path disk =>
    ((Disk.readConfig path).outcome? disk).map fun (file, document) => .sync file document
  | .clearSchedules => some .clear
  | .start => some .activate
  | .shutdown => some .deactivate
  | .fire dispatcher context => some (.print (project.fire dispatcher context).1.board.env.screen)
  | .moveTo moment => some (.moveTo moment)

theorem board_perform (event : Event) (project : Project) : (event.perform project).board =
    (event.boardStep? project).elim project.board (·.perform project.board) := by
  cases event with
  | operation op =>
    simp only [Event.perform, Event.boardStep?, Operation.perform_eq]
    match op.step? project with
    | none | some .clear | some (.update ..) | some (.unbind _) | some (.replace _) => rfl
    | some (.take (.everything ..)) | some (.take (.handlers ..)) => rfl
    | some (.take (.schedules ..)) => rfl
  | loadSchedules disk =>
    have eq : project.loadSchedules =
      project.replaceSchedules <$> Disk.prepare project.schedulesPath := rfl
    rw [Event.perform, eq, Disk.outcome?_map, Event.boardStep?]
    cases (Disk.prepare project.schedulesPath).outcome? disk <;> rfl
  | syncSchedules path disk =>
    have eq : project.syncSchedules path = (fun r =>
      project.updateSchedules r.1 r.2) <$> Disk.readConfig path := rfl
    rw [Event.perform, eq, Disk.outcome?_map, Event.boardStep?]
    cases (Disk.readConfig path).outcome? disk <;> rfl
  | clearSchedules => rfl
  | start => rfl
  | shutdown => rfl
  | fire dispatcher context => rfl
  | moveTo moment => rfl

theorem Orderly.event {engine : Engine} {clock : WallClock} {project : Project}
    (h : project.board.Orderly engine clock) (event : Event) :
    (event.perform project).board.Orderly engine clock := by
  rw [board_perform]
  cases event.boardStep? project with
  | none => exact h
  | some step => exact h.perform step

theorem Orderly.session {engine : Engine} {clock : WallClock} {project : Project}
    (h : project.board.Orderly engine clock) (events : List Event) :
    (project.session events).board.Orderly engine clock := by
  induction events generalizing project with
  | nil => exact h
  | cons event rest ih => exact ih (Orderly.event h event)

/-! ## What stays -/

theorem engine_made {id : String} {entry : ConfigEntry} {made : Option (Key .handler)}
    {g g' : DispatchGraph} (h : Handler.kind.create id entry g = (made, g')) :
    g'.engine = g.engine := by
  rcases Handler.create_cases h with ⟨-, rfl, -⟩ | ⟨created, -⟩
  · rfl
  · exact DispatchGraph.engine_create created

theorem engine_retireAll (registry : Registry (Key .handler)) (g : DispatchGraph) :
    (Registry.retireAll Handler.kind registry g).engine = g.engine :=
  Registry.retireAll_keeps (I := fun _ (s : DispatchGraph) => s.engine = g.engine)
    (fun h _ => (DispatchGraph.engine_unbindAll ..).trans h) rfl

theorem engine_load (registry : Registry (Key .handler))
    (documents : List (String × ConfigDocument)) (g : DispatchGraph) :
    (registry.load Handler.kind documents g).surroundings.engine = g.engine := by
  rw [Registry.load_quiet _ rfl]
  refine (DispatchGraph.Framed.recompileEach ..).engine.trans ?_
  let start : Registry.Loading DispatchGraph (Key .handler) :=
    ⟨.empty, Registry.retireAll Handler.kind registry g, {}⟩
  exact Registry.loadFiles_keeps
    (I := fun _ (s : DispatchGraph) => s.engine = g.engine) (l := start)
    (fun h made => (engine_made made).trans h) (fun h _ made => (engine_made made).trans h)
    documents (engine_retireAll registry g)

theorem engine_sync (registry : Registry (Key .handler)) (file : String)
    (document : ConfigDocument) (g : DispatchGraph) :
    (registry.sync Handler.kind file document g).surroundings.engine = g.engine :=
  Registry.sync_keeps (I := fun _ (s : DispatchGraph) => s.engine = g.engine)
    (fun h _ _ _ _ => (DispatchGraph.engine_update ..).trans h)
    (fun h _ => (DispatchGraph.engine_unbindAll ..).trans h)
    (fun h made => (engine_made made).trans h)
    (fun h _ made =>
      ((DispatchGraph.Framed.recompileEach ..).engine.trans (engine_made made)).trans h) rfl

theorem Step.stays (step : Step) (project : Project) :
    (step.perform project).root = project.root ∧
      (step.perform project).graph.engine = project.graph.engine := by
  cases step with
  | take update =>
    cases update with
    | everything settings handlers schedules =>
      exact ⟨rfl, (engine_load ..).trans
        (DispatchGraph.Registers.registerOnly project.graph settings.dispatchers).engine⟩
    | handlers file document => exact ⟨rfl, engine_sync ..⟩
    | schedules file document => exact ⟨rfl, rfl⟩
  | replace documents => exact ⟨rfl, engine_load ..⟩
  | clear => exact ⟨rfl, engine_retireAll ..⟩
  | update h entry => exact ⟨rfl, DispatchGraph.engine_update ..⟩
  | unbind h => exact ⟨rfl, DispatchGraph.engine_unbindAll ..⟩

/-- What holds of a project all through a session, for one place, one engine and one clock. -/
structure Lasting (root : String) (engine : Engine) (clock : WallClock)
    (project : Project) : Prop where
  place : project.root = root
  sameEngine : project.graph.engine = engine
  steady : ∃ graphs, Steady False ⟨project, graphs⟩
  orderly : project.board.Orderly engine clock

/-- Events that concern the board leave the handlers and the graph alone. -/
theorem Event.others (event : Event) (project : Project) :
    (∃ op, event = .operation op) ∨
      (event.perform project).root = project.root ∧
        (event.perform project).handlers = project.handlers ∧
        (event.perform project).graph = project.graph := by
  cases event with
  | operation op => exact .inl ⟨op, rfl⟩
  | loadSchedules disk =>
    refine .inr ?_
    have eq : project.loadSchedules =
      project.replaceSchedules <$> Disk.prepare project.schedulesPath := rfl
    rw [perform, eq, Disk.outcome?_map]
    cases (Disk.prepare project.schedulesPath).outcome? disk <;> exact ⟨rfl, rfl, rfl⟩
  | syncSchedules path disk =>
    refine .inr ?_
    have eq : project.syncSchedules path = (fun r =>
      project.updateSchedules r.1 r.2) <$> Disk.readConfig path := rfl
    rw [perform, eq, Disk.outcome?_map]
    cases (Disk.readConfig path).outcome? disk <;> exact ⟨rfl, rfl, rfl⟩
  | clearSchedules => exact .inr ⟨rfl, rfl, rfl⟩
  | start => exact .inr ⟨rfl, rfl, rfl⟩
  | shutdown => exact .inr ⟨rfl, rfl, rfl⟩
  | fire dispatcher context => exact .inr ⟨rfl, rfl, rfl⟩
  | moveTo moment => exact .inr ⟨rfl, rfl, rfl⟩

theorem Lasting.perform {root : String} {engine : Engine} {clock : WallClock} {project : Project}
    (h : Lasting root engine clock project) (event : Event) :
    Lasting root engine clock (event.perform project) := by
  have orderly := Orderly.event h.orderly event
  obtain ⟨graphs, steady⟩ := h.steady
  rcases event.others project with ⟨op, rfl⟩ | ⟨place, handlers, graph⟩
  · have stays : (op.perform project).root = project.root ∧
        (op.perform project).graph.engine = project.graph.engine := by
      rw [Operation.perform_eq]
      cases op.step? project with
      | none => exact ⟨rfl, rfl⟩
      | some step => exact step.stays project
    exact ⟨stays.1.trans h.place, stays.2.trans h.sameEngine,
      ⟨_, steady.perform op False.elim⟩, orderly⟩
  · refine ⟨place.trans h.place, (congrArg _ graph).trans h.sameEngine, ⟨graphs, ?_⟩, orderly⟩
    exact ⟨handlers ▸ graph ▸ steady.inOrder, graph ▸ steady.fresh, graph ▸ steady.recorded⟩

theorem Lasting.session {root : String} {engine : Engine} {clock : WallClock} {project : Project}
    (h : Lasting root engine clock project) (events : List Event) :
    Lasting root engine clock (project.session events) := by
  induction events generalizing project with
  | nil => exact h
  | cons event rest ih => exact ih (h.perform event)

/-! ## Loading -/

/-- The engine of a project that is loaded with these settings. -/
def engineFor (engine : Engine) (extend : Bool) (settings : Settings) : Engine :=
  if extend then settings.namespaces.foldl Engine.register engine else engine

theorem load_iff {root : String} {engine : Engine} {extend : Bool} {clock : WallClock}
    {disk : FileTree} {project : Project} :
    (load root engine extend clock).outcome? disk = some project ↔
      ∃ settings handlers schedules,
        (readEverything root).outcome? disk = some (settings, handlers, schedules) ∧
        project = (blank root (engineFor engine extend settings) clock settings).take
          (.everything settings handlers schedules) := by
  have eq : load root engine extend clock = (fun r =>
      (blank root (engineFor engine extend r.1) clock r.1).take
        (.everything r.1 r.2.1 r.2.2)) <$> readEverything root := rfl
  rw [eq, Disk.outcome?_map, Option.map_eq_some_iff]
  exact ⟨fun ⟨r, read, eq⟩ => ⟨r.1, r.2.1, r.2.2, read, eq.symm⟩,
    fun ⟨_, _, _, read, eq⟩ => ⟨_, read, eq.symm⟩⟩

theorem board_take_everything (project : Project) (settings : Settings)
    (handlers schedules : List (String × ConfigDocument)) :
    (project.take (.everything settings handlers schedules)).board =
      ScheduleBoard.Step.perform (.replace settings.dateFormat schedules) project.board := rfl

theorem settings_take_everything (project : Project) (settings : Settings)
    (handlers schedules : List (String × ConfigDocument)) :
    (project.take (.everything settings handlers schedules)).settings = settings := rfl

/-- The board of a loaded project is orderly; it does not run, and no task has a timer. -/
theorem load_board {root : String} {engine : Engine} {extend : Bool} {clock : WallClock}
    {disk : FileTree} {project : Project}
    (loaded : (load root engine extend clock).outcome? disk = some project) :
    project.board.Orderly (engineFor engine extend project.settings) clock ∧
      project.board.env.active = false ∧ ∀ id, project.board.Ended id := by
  obtain ⟨settings, handlers, schedules, -, rfl⟩ := load_iff.1 loaded
  rw [board_take_everything, settings_take_everything]
  have empty : (blank root (engineFor engine extend settings) clock settings).board.Orderly
      (engineFor engine extend settings) clock := ⟨rfl, rfl, fun _ _ => nofun⟩
  have unstarted : (blank root (engineFor engine extend settings) clock
      settings).board.env.active = false := rfl
  have nobody :
      (blank root (engineFor engine extend settings) clock settings).board.tasks = .empty :=
    rfl
  generalize (blank root (engineFor engine extend settings) clock settings).board = board at *
  have stopped : (ScheduleBoard.Step.perform (.replace settings.dateFormat schedules)
      board).env.active = false := by
    rw [← unstarted]
    exact (ScheduleTask.continues_load board.tasks schedules
      { board.env with dateFormat := settings.dateFormat }).active
  refine ⟨empty.perform _, stopped, fun id => ?_⟩
  refine ScheduleBoard.Step.ended empty stopped (fun _ owned found => ?_) fun _ _ _ eq => ?_
  · rw [nobody] at found
    cases found
  · cases eq

theorem Lasting.load {root : String} {engine : Engine} {extend : Bool} {clock : WallClock}
    {disk : FileTree} {project : Project}
    (loaded : (load root engine extend clock).outcome? disk = some project) :
    Lasting root (engineFor engine extend project.settings) clock project := by
  obtain ⟨orderly, -⟩ := load_board loaded
  obtain ⟨t, trace, rfl⟩ : ∃ t, (Trace.load root engine extend clock).outcome? disk = some t ∧
      t.project = project := by
    rwa [← Trace.project_load, Disk.outcome?_map, Option.map_eq_some_iff] at loaded
  obtain ⟨settings, handlers, schedules, -, eq⟩ := load_iff.1 loaded
  have stays := (Step.take (.everything settings handlers schedules)).stays
    (blank root (engineFor engine extend settings) clock settings)
  refine ⟨?_, ?_, ⟨t.graphs, .load trace⟩, orderly⟩
  · rw [eq]
    exact stays.1
  · rw [eq]
    exact stays.2

end Project
end ScriptHost
