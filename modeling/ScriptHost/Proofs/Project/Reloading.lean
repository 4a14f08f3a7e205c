import ScriptHost.Proofs.Project.Recruiting
import ScriptHost.Proofs.Project.Sessions
/-!
# Reloading is loading

A project that is loaded anew comes to be what a project is that is loaded from the same files
for the first time, whatever happened to it before. Only its timers are those of a project that
was started at that moment.

**Results.**
* `take_everything`: what a project is that took over settings, handlers and schedules.
* `reload_is_load`: a reload leads to what a first load leads to.
-/
namespace ScriptHost

open DispatchGraph

/-! ## Registered ids -/

theorem DispatchGraph.contains_register (g : DispatchGraph) (id name : String) :
    (g.register id).registry.contains name = (id == name || g.registry.contains name) := by
  unfold register
  split
  · rename_i known
    by_cases same : id = name
    · subst same
      simp [known]
    · simp [same]
  · exact Table.contains_insert ..

theorem DispatchGraph.contains_registerOnly (g : DispatchGraph) (ids : List String)
    (name : String) : (g.registerOnly ids).registry.contains name = ids.contains name := by
  have added : ∀ (list : List String) (g : DispatchGraph),
      (list.foldl register g).registry.contains name =
        (list.contains name || g.registry.contains name) := by
    intro list
    induction list with
    | nil => exact fun _ => by simp
    | cons id rest ih =>
      intro g
      rw [List.foldl_cons, ih, contains_register, List.contains_cons]
      rw [Bool.or_left_comm, ← Bool.or_assoc, Bool.beq_comm]
  rw [registerOnly, added, Bool.or_eq_left_iff_imp]
  intro kept
  obtain ⟨d, found⟩ := Option.isSome_iff_exists.1 kept
  exact (List.mem_filter.1 ((Table.mem_entries_iff ..).2 found)).2

theorem Table.keys_congr {α β : Type} {s : Table α} {t : Table β}
    (same : ∀ name, s.contains name = t.contains name) : s.keys = t.keys := by
  have units : s.map (fun _ _ => ()) = t.map (fun _ _ => ()) := by
    refine Table.ext_get? fun name => ?_
    have eq := same name
    simp only [contains] at eq
    rw [get?_map, get?_map]
    cases found : s.get? name <;> cases found' : t.get? name <;> simp_all
  have keys : (s.map fun _ _ => ()).keys = (t.map fun _ _ => ()).keys := by rw [units]
  simpa [Table.keys, Table.map, Function.comp_def] using keys

namespace Project

/-! ## What a project took over -/

section

variable {project : Project} {graphs : List DispatchGraph}

theorem take_everything (steady : Steady False ⟨project, graphs⟩) (settings : Settings)
    (handlers schedules : List (String × ConfigDocument)) :
    let after := project.take (.everything settings handlers schedules)
    after.settings = settings ∧
      (∀ name, after.graph.registry.contains name = settings.dispatchers.contains name) ∧
      (∀ id, handlerView? after.handlers after.graph id =
        (Registry.firstOf Handler.read? id (Registry.definitions handlers)).map
          (Handler.viewOf project.graph.engine settings.dispatchers.contains)) ∧
      ∀ name context, after.graph.fire name context = fireOf project.graph.engine
        settings.dispatchers.contains (Registry.accepted Handler.read? handlers) name context := by
  intro after
  have registers := Registers.registerOnly project.graph settings.dispatchers
  have fresh := steady.fresh
  have inOrder := steady.inOrder
  have table : (project.graph.registerOnly settings.dispatchers).registry.contains =
      settings.dispatchers.contains := funext (contains_registerOnly project.graph _)
  refine ⟨rfl, fun name => ?_, fun id => ?_, fun name context => ?_⟩
  · rw [← table]
    exact congrArg (·.contains name) (load_registry inOrder fresh registers handlers)
  · rw [← table]
    exact load_views inOrder fresh registers handlers id
  · rw [← table]
    exact load_fires inOrder fresh registers handlers name context

theorem reload_iff {disk : FileTree} {after : Project} : project.reload.outcome? disk = some after ↔
    ∃ settings handlers schedules,
      (readEverything project.root).outcome? disk = some (settings, handlers, schedules) ∧
      after = project.take (.everything settings handlers schedules) := by
  have eq : project.reload = (fun r =>
    project.take (.everything r.1 r.2.1 r.2.2)) <$> readEverything project.root := rfl
  rw [eq, Disk.outcome?_map, Option.map_eq_some_iff]
  exact ⟨fun ⟨r, read, eq⟩ => ⟨r.1, r.2.1, r.2.2, read, eq.symm⟩,
    fun ⟨_, _, _, read, eq⟩ => ⟨_, read, eq.symm⟩⟩

end

/-! ## Projects that are alike -/

/-- The tasks of a project without their timers. -/
def idleTasks (project : Project) : Registry ScheduleTask :=
  project.board.tasks.map fun _ owned => ⟨owned.file, owned.entity.terminate⟩

/-- Two projects cannot be told apart, but for the timers of their tasks. -/
structure Alike (project other : Project) : Prop where
  settings : project.settings = other.settings
  dispatchers : project.graph.registry.keys = other.graph.registry.keys
  /-- Handlers have the same file, configuration and program and are bound to the same
  dispatchers. -/
  handlers : ∀ id, handlerView? project.handlers project.graph id =
    handlerView? other.handlers other.graph id
  /-- Tasks have the same file, configuration, program and timing. -/
  tasks : project.idleTasks = other.idleTasks
  /-- Running a dispatcher has the same result and leaves the same context. -/
  runs : ∀ name context, project.graph.fire name context = other.graph.fire name context

/-! ## Boards -/

/-- Making all tasks anew on a board and on one that never ran: the tasks are the same but for
their timers, and the timers are those of the other board once it is started at that moment. -/
theorem board_replaced {board new : ScheduleBoard} (engine : board.env.engine = new.env.engine)
    (clock : board.env.clock = new.env.clock) (unstarted : new.env.active = false)
    (unset : new.env.timersSet = []) (dateFormat : String)
    (schedules : List (String × ConfigDocument)) :
    let after := ScheduleBoard.Step.perform (.replace dateFormat schedules) board
    let fresh := ScheduleBoard.Step.perform (.replace dateFormat schedules) new
    (after.tasks.map fun _ owned => (⟨owned.file, owned.entity.terminate⟩ : Owned ScheduleTask)) =
        (fresh.tasks.map fun _ owned => ⟨owned.file, owned.entity.terminate⟩) ∧
      if board.env.active then
        let started := (fresh.moveTo board.now).1.activate
        after.tasks = started.tasks ∧
          after.env.timersSet = board.env.timersSet ++ started.env.timersSet
      else after.tasks = fresh.tasks ∧ after.env.timersSet = board.env.timersSet := by
  intro after fresh
  have same : ScheduleTask.fromFiles { board.env with dateFormat } schedules =
      ScheduleTask.fromFiles { new.env with dateFormat } schedules := by
    refine ScheduleTask.fromFiles_congr ?_ ?_ schedules
    · exact engine
    · rfl
  have made := @ScheduleTask.load_stopped { new.env with dateFormat } unstarted new.tasks schedules
  have tasks : fresh.tasks = ScheduleTask.fromFiles { board.env with dateFormat } schedules :=
    made.1.trans same.symm
  have shared : fresh.env = { new.env with dateFormat } := made.2
  cases active : board.env.active with
  | false =>
    have loaded := @ScheduleTask.load_stopped { board.env with dateFormat } active board.tasks
      schedules
    have eq : after.tasks = fresh.tasks := loaded.1.trans tasks.symm
    refine ⟨by rw [eq], eq, ?_⟩
    show after.env.timersSet = { board.env with dateFormat }.timersSet
    rw [← loaded.2]
    rfl
  | true =>
    have loaded := @ScheduleTask.load_running { board.env with dateFormat } active board.tasks
      schedules
    have ended : ∀ id, fresh.Ended id := fun id owned found =>
      (ScheduleTask.fromFiles_keeps _ schedules).2.2 id owned (tasks ▸ found)
    obtain ⟨startedTasks, startedTimers⟩ :=
      ScheduleBoard.activate_moveTo_of_ended ended board.now
    have instant : fresh.env.clock.read board.now = board.env.wallTime := by
      rw [shared]
      exact congrArg (·.read board.now) clock.symm
    rw [instant] at startedTasks startedTimers
    have noTimers : fresh.env.timersSet = [] := by
      rw [shared]
      exact unset
    have eq : after.tasks = fresh.tasks.map fun _ owned =>
        ⟨owned.file, owned.entity.started board.env.wallTime board.now⟩ := by
      rw [tasks]
      exact loaded.1
    have timers : after.env.timersSet = board.env.timersSet ++
        ScheduleTask.timersOf fresh.tasks board.env.wallTime := by
      rw [tasks]
      exact congrArg ScheduleEnvironment.timersSet loaded.2
    refine ⟨?_, ?_, ?_⟩
    · refine Table.ext_get? fun id => ?_
      rw [eq, Table.get?_map, Table.get?_map, Table.get?_map, Option.map_map]
      rfl
    · exact eq.trans startedTasks.symm
    · rw [timers, startedTimers, noTimers, List.nil_append]

/-! ## Reloading -/

/-- Whatever happened in the session of a loaded project: what it is after it was loaded anew is
what a project is that is loaded from the same files for the first time, if the engine was to know
the same namespaces. If tasks are to run, they have the timers that those of the other project
have once it is started at that moment. -/
theorem reload_is_load {root : String} {engine : Engine} {extend : Bool} {clock : WallClock}
    {disk₀ disk : FileTree} {project after : Project}
    (loaded : (load root engine extend clock).outcome? disk₀ = some project) (events : List Event)
    (reloaded : (project.session events).reload.outcome? disk = some after)
    (sameNamespaces : extend → after.settings.namespaces = project.settings.namespaces) :
    let before := (project.session events).board
    ∃ fresh, (load root engine extend clock).outcome? disk = some fresh ∧ Alike after fresh ∧
      if before.env.active then
        let started := (fresh.moveTo before.now).1.start.board
        after.board.tasks = started.tasks ∧
          after.board.env.timersSet = before.env.timersSet ++ started.env.timersSet
      else after.board.tasks = fresh.board.tasks ∧
        after.board.env.timersSet = before.env.timersSet := by
  have lasting := (Lasting.load loaded).session events
  generalize project.session events = current at lasting reloaded ⊢
  obtain ⟨settings, handlers, schedules, read, rfl⟩ := reload_iff.1 reloaded
  rw [lasting.place] at read
  have engine' : current.graph.engine = engineFor engine extend settings := by
    rw [lasting.sameEngine, engineFor, engineFor]
    split
    · rename_i extends'
      rw [← sameNamespaces extends']
      rfl
    · rfl
  let new := blank root (engineFor engine extend settings) clock settings
  obtain ⟨graphs, steady⟩ := lasting.steady
  obtain ⟨-, ids, views, runs⟩ := take_everything steady settings handlers schedules
  obtain ⟨-, ids', views', runs'⟩ :=
    take_everything (Steady.blank root (engineFor engine extend settings) clock settings) settings
      handlers schedules
  have engines : current.board.env.engine = new.board.env.engine :=
    lasting.orderly.engine.trans (lasting.sameEngine.symm.trans engine')
  have clocks : current.board.env.clock = new.board.env.clock := lasting.orderly.clock
  obtain ⟨tasks, timers⟩ := board_replaced engines clocks rfl rfl settings.dateFormat schedules
  refine ⟨new.take (.everything settings handlers schedules),
    load_iff.2 ⟨settings, handlers, schedules, read, rfl⟩,
    ⟨rfl, Table.keys_congr fun name => ?_, fun id => ?_, tasks, fun name context => ?_⟩, timers⟩
  · rw [ids, ids']
  · rw [views, views', engine']
    rfl
  · rw [runs, runs', engine']
    rfl

/-! ## A project with a handler and a task -/

/-- A project that names a namespace; its handler prints a line, and its task prints one as soon
as it is started. -/
def chimes (line : String) : FileTree := .directory [("p", .directory [
  ("vesper.toml", textFile ["dispatchers = [\"d\"]", "[engine]", "namespaces = [\"text\"]"]),
  ("handlers", .directory [("h.toml", textFile ["[h]", "bind = \"d\"",
    "handle = \"print *" ++ line ++ "\""])]),
  ("schedules", .directory [("s.toml", textFile ["[s]", "async = true",
    "execute = \"print *" ++ line ++ "\""])])])]

theorem chimes_reloaded_while_active : ∃ project after fresh,
    (load "/p" StandardActions.engine true (.standing 0)).outcome? (chimes "ding") = some project ∧
      (project.session [.start, .fire "d" {}, .moveTo 5]).reload.outcome? (chimes "dong") =
        some after ∧
      (load "/p" StandardActions.engine true (.standing 0)).outcome? (chimes "dong") = some fresh ∧
      Alike after fresh ∧ after.board.tasks = (fresh.moveTo 5).1.start.board.tasks := by
  have reloads : ((load "/p" StandardActions.engine true (.standing 0)).outcome?
      (chimes "ding")).any (fun project =>
        let before := project.session [.start, .fire "d" {}, .moveTo 5]
        before.board.env.active && before.board.now == 5 &&
          (before.reload.outcome? (chimes "dong")).any fun after =>
            decide (after.settings.namespaces = project.settings.namespaces)) = true := by
    decide +kernel
  obtain ⟨project, loaded, reloads⟩ := (Option.any_eq_true _ _).1 reloads
  simp only [Bool.and_eq_true, beq_iff_eq] at reloads
  obtain ⟨⟨active, now⟩, reloads⟩ := reloads
  obtain ⟨after, reloaded, namespaces⟩ := (Option.any_eq_true _ _).1 reloads
  obtain ⟨fresh, loaded', alike, timers⟩ :=
    reload_is_load loaded _ reloaded fun _ => of_decide_eq_true namespaces
  rw [if_pos active, now] at timers
  exact ⟨project, after, fresh, loaded, reloaded, loaded', alike, timers.1⟩

end Project
end ScriptHost
