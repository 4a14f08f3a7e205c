import ScriptHost.Proofs.Project.Stopping
import ScriptHost.Proofs.Schedule.Loops
/-!
# Timers over whole sessions

All timer loops that the tasks of a project ever set, those of tasks that are gone among them,
followed through a session.

**What holds.** `LoopedBoard.Orderly`: every task is, and every loop of a retired task is
cancelled.

**Results.**
* `LoopedBoard.perform_forget`: what is left when only the timers with a handle are remembered is
  what becomes of the board.
* `LoopedBoard.Orderly.perform`, `accounts_perform`: what every step of a board keeps.
* `one_current_timer`: in every session, of the loops of a task one at most is not cancelled; that
  was planned after the timing that the task has now. None fires past the end of its time.
-/
namespace ScriptHost

/-- A board with all loops that its tasks ever set. -/
structure LoopedBoard where
  env : ScheduleEnvironment
  /-- The loops of tasks that were retired. -/
  left : List TimerLoop := []
  tasks : Registry LoopedTask := .empty

namespace LoopedBoard

/-- A board whose tasks have set no timer yet. -/
def unset (board : ScheduleBoard) : LoopedBoard where
  env := board.env
  tasks := board.tasks.map fun _ owned => ⟨owned.file, { task := owned.entity }⟩

/-- The board with the timers that a handle is left of. -/
def forget (board : LoopedBoard) : ScheduleBoard where
  env := board.env
  tasks := board.tasks.forget LoopedTask.forget

def mapTasks (board : LoopedBoard)
    (f : LoopedTask → ScheduleEnvironment → LoopedTask × ScheduleEnvironment) : LoopedBoard :=
  let (tasks, env, left) := Registry.mapEntities (LoopedTask.aside f) board.tasks
    (board.env, board.left)
  { env, left, tasks }

def perform (step : ScheduleBoard.Step) (board : LoopedBoard) : LoopedBoard :=
  match step with
  | .replace dateFormat documents =>
    let l := board.tasks.load LoopedTask.kind documents ({ board.env with dateFormat }, board.left)
    { tasks := l.registry, env := l.surroundings.1, left := l.surroundings.2 }
  | .sync file document =>
    let y := board.tasks.sync LoopedTask.kind file document (board.env, board.left)
    { tasks := y.registry, env := y.surroundings.1, left := y.surroundings.2 }
  | .clear =>
    let (tasks, env, left) := board.tasks.clear LoopedTask.kind (board.env, board.left)
    { tasks, env, left }
  | .activate => { board with env.active := true }.mapTasks LoopedTask.start
  | .deactivate => { board with env.active := false }.mapTasks fun t env => (t.terminate, env)
  | .print screen => { board with env.screen := screen }
  | .moveTo moment =>
    let board := board.mapTasks (LoopedTask.announce moment)
    { board with env.screen := (board.env.screen.moveTo moment).1 }

/-- Every task is orderly, and the loops of those that are gone are cancelled. -/
structure Orderly (clock : WallClock) (board : LoopedBoard) : Prop where
  sameClock : board.env.clock = clock
  tasks : ∀ id owned, board.tasks.get? id = some owned → owned.entity.Orderly clock
  left : ∀ loop ∈ board.left, loop.cancelled = true ∧ loop.Timely clock

section

variable {board : LoopedBoard} {clock : WallClock} {tasks : Registry LoopedTask} {id file : String}
  {s s' : LoopedTask.Surroundings}

/-! ## What every operation on a task keeps -/

theorem Orderly.retire {owned : Owned LoopedTask} (h : Orderly clock ⟨s.1, s.2, tasks⟩)
    (found : tasks.get? id = some owned) :
    Orderly clock ⟨(LoopedTask.kind.retire owned.entity s).1,
      (LoopedTask.kind.retire owned.entity s).2, tasks.erase id⟩ := by
  have ended := (h.tasks id owned found).terminate
  refine ⟨h.sameClock, Table.forall_erase h.tasks, fun loop mem => ?_⟩
  rcases List.mem_append.1 mem with mem | mem
  · refine ⟨?_, ended.timely loop mem⟩
    rw [LoopedTask.loops_terminate] at mem
    exact ended.dropped loop mem
  · exact h.left loop mem

theorem create_cases {entry : ConfigEntry} {made : Option LoopedTask}
    (h : LoopedTask.kind.create id entry s = (made, s')) :
    s' = s ∧ ∀ t, made = some t → t.loops = [] ∧ ∀ clock, t.Orderly clock := by
  simp only [LoopedTask.kind] at h
  split at h
  · next task created =>
    cases h
    obtain ⟨settled, -, -⟩ := ScheduleTask.create_settled created
    refine ⟨rfl, fun t made => ?_⟩
    cases made
    exact ⟨rfl, LoopedTask.Orderly.unset settled⟩
  · cases h
    exact ⟨rfl, fun t made => by cases made⟩

theorem Orderly.created {entry : ConfigEntry} {t : LoopedTask}
    (h : Orderly clock ⟨s.1, s.2, tasks⟩)
    (made : LoopedTask.kind.create id entry s = (some t, s')) :
    Orderly clock ⟨s'.1, s'.2, tasks.insert id ⟨file, t⟩⟩ := by
  obtain ⟨rfl, new⟩ := create_cases made
  exact ⟨h.sameClock, Table.forall_insert h.tasks ((new t rfl).2 clock), h.left⟩

theorem Orderly.updated {owned : Owned LoopedTask} (h : Orderly clock ⟨s.1, s.2, tasks⟩)
    (found : tasks.get? id = some owned) (entry : ConfigEntry) :
    Orderly clock ⟨(LoopedTask.kind.update owned.entity entry s).2.1,
      (LoopedTask.kind.update owned.entity entry s).2.2,
      tasks.insert id ⟨owned.file, (LoopedTask.kind.update owned.entity entry s).1⟩⟩ :=
  ⟨(LoopedTask.clock_update ..).trans h.sameClock,
    Table.forall_insert h.tasks ((h.tasks id owned found).update h.sameClock entry), h.left⟩

theorem Orderly.activated {entry : ConfigEntry} {t : LoopedTask}
    (h : Orderly clock ⟨s.1, s.2, tasks⟩)
    (made : LoopedTask.kind.create id entry s = (some t, s')) :
    Orderly clock ⟨(LoopedTask.kind.activate t s').2.1, (LoopedTask.kind.activate t s').2.2,
      tasks.insert id ⟨file, (LoopedTask.kind.activate t s').1⟩⟩ := by
  obtain ⟨rfl, new⟩ := create_cases made
  exact ⟨(LoopedTask.clock_startIfActive ..).trans h.sameClock,
    Table.forall_insert h.tasks (((new t rfl).2 clock).startIfActive h.sameClock), h.left⟩

theorem Orderly.mapTasks {f : LoopedTask → ScheduleEnvironment → LoopedTask × ScheduleEnvironment}
    (each : ∀ (t : LoopedTask) (env : ScheduleEnvironment), t.Orderly clock → env.clock = clock →
      (f t env).1.Orderly clock ∧ (f t env).2.clock = clock)
    (h : board.Orderly clock) : (board.mapTasks f).Orderly clock := by
  let J (s : LoopedTask.Surroundings) : Prop :=
    s.1.clock = clock ∧ ∀ loop ∈ s.2, loop.cancelled = true ∧ loop.Timely clock
  have aside (t : LoopedTask) (s : LoopedTask.Surroundings) (orderly : t.Orderly clock) (h : J s) :
      (LoopedTask.aside f t s).1.Orderly clock ∧ J (LoopedTask.aside f t s).2 := by
    obtain ⟨kept, same⟩ := each t s.1 orderly h.1
    exact ⟨kept, same, h.2⟩
  have kept : J (board.env, board.left) := ⟨h.sameClock, h.left⟩
  obtain ⟨tasks, same, left⟩ := Registry.mapEntities_keeps aside h.tasks kept
  exact ⟨same, tasks, left⟩

/-! ## What every step keeps -/

theorem Orderly.load (h : Orderly clock ⟨s.1, s.2, tasks⟩)
    (documents : List (String × ConfigDocument)) :
    let l := tasks.load LoopedTask.kind documents s
    Orderly clock ⟨l.surroundings.1, l.surroundings.2, l.registry⟩ := by
  let I (r : Registry LoopedTask) (s : LoopedTask.Surroundings) : Prop :=
    Orderly clock ⟨s.1, s.2, r⟩
  have emptied : I .empty (Registry.retireAll LoopedTask.kind tasks s) :=
    Registry.retireAll_keeps (I := I) (fun h found => h.retire found) h
  let start : Registry.Loading LoopedTask.Surroundings LoopedTask :=
    ⟨.empty, Registry.retireAll LoopedTask.kind tasks s, {}⟩
  have filled : I (documents.foldl (Registry.loadFile LoopedTask.kind) start).registry
      (documents.foldl (Registry.loadFile LoopedTask.kind) start).surroundings :=
    Registry.loadFiles_keeps (I := I) (l := start) (fun h made => (create_cases made).1 ▸ h)
      (fun h _ made => h.created made) documents emptied
  exact filled.mapTasks fun t env orderly same =>
    ⟨orderly.startIfActive same, (LoopedTask.clock_startIfActive t env).trans same⟩

theorem Orderly.sync (h : Orderly clock ⟨s.1, s.2, tasks⟩) (file : String)
    (document : ConfigDocument) :
    let y := tasks.sync LoopedTask.kind file document s
    Orderly clock ⟨y.surroundings.1, y.surroundings.2, y.registry⟩ :=
  Registry.sync_keeps (I := fun r s => Orderly clock ⟨s.1, s.2, r⟩)
    (fun h found _ _ _ => h.updated found _) (fun h found => h.retire found)
    (fun h made => (create_cases made).1 ▸ h) (fun h _ made => h.activated made) h

theorem Orderly.perform (h : board.Orderly clock) (step : ScheduleBoard.Step) :
    (perform step board).Orderly clock := by
  cases step with
  | replace dateFormat documents =>
    exact Orderly.load (s := ({ board.env with dateFormat }, board.left))
      ⟨h.sameClock, h.tasks, h.left⟩ documents
  | sync file document => exact Orderly.sync (s := (board.env, board.left)) h file document
  | clear =>
    exact Registry.retireAll_keeps (s := (board.env, board.left))
      (I := fun r s => Orderly clock ⟨s.1, s.2, r⟩) (fun h found => h.retire found) h
  | activate =>
    have active : Orderly clock { board with env.active := true } := ⟨h.sameClock, h.tasks, h.left⟩
    exact active.mapTasks fun t env orderly same =>
      ⟨orderly.toSound.start same, (LoopedTask.clock_start t env).trans same⟩
  | deactivate =>
    have inactive : Orderly clock { board with env.active := false } :=
      ⟨h.sameClock, h.tasks, h.left⟩
    exact inactive.mapTasks (f := fun t env => (t.terminate, env))
      fun t env orderly same => ⟨orderly.terminate, same⟩
  | print screen => exact ⟨h.sameClock, h.tasks, h.left⟩
  | moveTo moment =>
    have moved := h.mapTasks (f := LoopedTask.announce moment)
      fun t env orderly same => ⟨same ▸ (same ▸ orderly).runTo moment, same⟩
    exact ⟨moved.sameClock, moved.tasks, moved.left⟩

/-! ## What is forgotten -/

theorem mapTasks_forget (board : LoopedBoard)
    {f : LoopedTask → ScheduleEnvironment → LoopedTask × ScheduleEnvironment}
    {g : ScheduleTask → ScheduleEnvironment → ScheduleTask × ScheduleEnvironment}
    (each : ∀ id owned, board.tasks.get? id = some owned → ∀ env,
      g owned.entity.forget env = ((f owned.entity env).1.forget, (f owned.entity env).2)) :
    (board.mapTasks f).forget = board.forget.mapTasks g := by
  have aside (id : String) (owned : Owned LoopedTask) (found : board.tasks.get? id = some owned)
      (s : LoopedTask.Surroundings) : g owned.entity.forget s.1 =
        ((LoopedTask.aside f owned.entity s).1.forget, (LoopedTask.aside f owned.entity s).2.1) :=
    each id owned found s.1
  have all := Registry.mapEntities_forgets board.tasks aside (board.env, board.left)
  simp only [ScheduleBoard.mapTasks, forget, all]
  rfl

theorem perform_forget (h : board.Orderly clock) (step : ScheduleBoard.Step) :
    (perform step board).forget = step.perform board.forget := by
  cases step with
  | replace dateFormat documents =>
    have all := Registry.load_forgets LoopedTask.kind_forgets board.tasks documents
      ({ board.env with dateFormat }, board.left)
    simp only [ScheduleBoard.Step.perform, forget, all]
    rfl
  | sync file document =>
    have all := Registry.sync_forgets LoopedTask.kind_forgets board.tasks file document
      (board.env, board.left)
    simp only [ScheduleBoard.Step.perform, forget, all]
    rfl
  | clear =>
    have all := Registry.clear_forgets LoopedTask.kind_forgets board.tasks (board.env, board.left)
    simp only [ScheduleBoard.Step.perform, forget, all]
    rfl
  | activate =>
    exact mapTasks_forget { board with env.active := true } fun _ owned _ env =>
      LoopedTask.forget_start owned.entity env
  | deactivate =>
    have all := mapTasks_forget { board with env.active := false }
      (f := fun t env => (t.terminate, env)) (g := fun task env => (task.terminate, env))
      fun _ owned _ env => by rw [LoopedTask.forget_terminate]
    exact all
  | print screen => rfl
  | moveTo moment =>
    have all := mapTasks_forget board
      (f := LoopedTask.announce moment)
      (g := fun task env => ((task.runTo env.clock moment).1,
        { env with screen := env.screen.announce (task.runTo env.clock moment).2 }))
      fun id owned found env => by
        rw [LoopedTask.forget_runTo (h.tasks id owned found).toSound]
        rfl
    simp only [ScheduleBoard.Step.perform, ScheduleBoard.moveTo, ← all]
    rfl

/-! ## No loop is lost -/

/-- All loops of the tasks that are there. -/
def held (tasks : Registry LoopedTask) : List TimerLoop :=
  tasks.values.flatMap (·.entity.loops)

theorem held_insert (tasks : Registry LoopedTask) (id file : String) (t : LoopedTask) :
    (held (tasks.insert id ⟨file, t⟩)).Perm (t.loops ++ held (tasks.erase id)) :=
  (Table.values_insert_perm tasks id ⟨file, t⟩).flatMap_right _

theorem held_perm {owned : Owned LoopedTask} (found : tasks.get? id = some owned) :
    (held tasks).Perm (owned.entity.loops ++ held (tasks.erase id)) :=
  (Table.values_perm found).flatMap_right _

open LoopedTask (Accounts)

theorem accounts_replace {owned : Owned LoopedTask} {t : LoopedTask}
    (found : tasks.get? id = some owned) (accounts : Accounts owned.entity.loops s t.loops s') :
    Accounts (held tasks) s (held (tasks.insert id ⟨file, t⟩)) s' :=
  (accounts.append _).congr (held_perm found) (held_insert tasks id file t)

theorem accounts_remove {owned : Owned LoopedTask} (found : tasks.get? id = some owned) :
    Accounts (held tasks) s (held (tasks.erase id)) (LoopedTask.kind.retire owned.entity s) :=
  ((LoopedTask.accounts_retire owned.entity s).append _).congr (held_perm found) (.refl _)

/-- A task comes that has no loops but those that it sets. -/
theorem accounts_add {entry : ConfigEntry} {t made : LoopedTask}
    (new : tasks.contains id = false)
    (created : LoopedTask.kind.create id entry s = (some made, s'))
    {s'' : LoopedTask.Surroundings} (accounts : Accounts made.loops s' t.loops s'') :
    Accounts (held tasks) s (held (tasks.insert id ⟨file, t⟩)) s'' := by
  obtain ⟨rfl, fresh⟩ := create_cases created
  rw [(fresh made rfl).1] at accounts
  refine (accounts.append (held tasks)).congr (.refl _) ?_
  have inserted := held_insert tasks id file t
  rwa [Table.erase_eq_self new] at inserted

theorem accounts_mapEntities
    {f : LoopedTask → LoopedTask.Surroundings → LoopedTask × LoopedTask.Surroundings}
    (each : ∀ t s, Accounts t.loops s (f t s).1.loops (f t s).2) (tasks : Registry LoopedTask)
    (s : LoopedTask.Surroundings) :
    Accounts (held tasks) s (held (Registry.mapEntities f tasks s).1)
      (Registry.mapEntities f tasks s).2 := by
  have entries : ∀ (list : List (String × Owned LoopedTask)) (s : LoopedTask.Surroundings),
      let r := Table.mapFoldEntries (fun _ (owned : Owned LoopedTask) s =>
        ((⟨owned.file, (f owned.entity s).1⟩ : Owned LoopedTask), (f owned.entity s).2)) list s
      Accounts (list.flatMap (·.2.entity.loops)) s (r.1.flatMap (·.2.entity.loops)) r.2 := by
    intro list
    induction list with
    | nil => exact fun s => .refl [] s
    | cons entry rest ih =>
      intro s
      have first := (each entry.2.entity s).append (rest.flatMap (·.2.entity.loops))
      have others := (ih (f entry.2.entity s).2).append (f entry.2.entity s).1.loops
      exact first.trans (others.congr List.perm_append_comm List.perm_append_comm)
  have all := entries tasks.entries s
  simp only [held, Table.values, List.flatMap_map]
  exact all

/-- In every step, each loop stays or one of a timer comes that was set. -/
theorem accounts_perform (board : LoopedBoard) (step : ScheduleBoard.Step) :
    Accounts (held board.tasks) (board.env, board.left) (held (perform step board).tasks)
      ((perform step board).env, (perform step board).left) := by
  have retired (s : LoopedTask.Surroundings) : Accounts (held board.tasks) s []
      (Registry.retireAll LoopedTask.kind board.tasks s) :=
    Registry.retireAll_keeps (I := fun r s' => Accounts (held board.tasks) s (held r) s')
      (fun h found => h.trans (accounts_remove found)) (.refl _ s)
  cases step with
  | replace dateFormat documents =>
    let s : LoopedTask.Surroundings := ({ board.env with dateFormat }, board.left)
    let start : Registry.Loading LoopedTask.Surroundings LoopedTask :=
      ⟨.empty, Registry.retireAll LoopedTask.kind board.tasks s, {}⟩
    have filled : Accounts (held board.tasks) s
        (held (documents.foldl (Registry.loadFile LoopedTask.kind) start).registry)
        (documents.foldl (Registry.loadFile LoopedTask.kind) start).surroundings :=
      Registry.loadFiles_keeps (l := start)
        (I := fun r s' => Accounts (held board.tasks) s (held r) s')
        (fun h made => (create_cases made).1 ▸ h)
        (fun h new made => h.trans (accounts_add new made (.refl _ _))) documents (retired s)
    exact filled.trans (accounts_mapEntities LoopedTask.accounts_startIfActive _ _)
  | sync file document =>
    exact Registry.sync_keeps (s := (board.env, board.left))
      (I := fun r s' => Accounts (held board.tasks) (board.env, board.left) (held r) s')
      (fun h found _ _ _ => h.trans (accounts_replace found (LoopedTask.accounts_update ..)))
      (fun h found => h.trans (accounts_remove found)) (fun h made => (create_cases made).1 ▸ h)
      (fun h new made => h.trans (accounts_add new made (LoopedTask.accounts_startIfActive ..)))
      (.refl _ _)
  | clear => exact retired _
  | activate => exact accounts_mapEntities LoopedTask.accounts_start board.tasks _
  | deactivate =>
    let f (t : LoopedTask) (env : ScheduleEnvironment) : LoopedTask × ScheduleEnvironment :=
      (t.terminate, env)
    exact accounts_mapEntities (f := LoopedTask.aside f) LoopedTask.accounts_terminate board.tasks _
  | print screen => exact .refl _ _
  | moveTo moment =>
    exact accounts_mapEntities (f := LoopedTask.aside (LoopedTask.announce moment))
      (fun t s => LoopedTask.accounts_runTo t s.1.clock moment s _) board.tasks _

end

/-- All loops, those of retired tasks among them. -/
def loops (board : LoopedBoard) : List TimerLoop := held board.tasks ++ board.left

theorem mem_loops {board : LoopedBoard} {loop : TimerLoop} : loop ∈ board.loops ↔
    (∃ id owned, board.tasks.get? id = some owned ∧ loop ∈ owned.entity.loops) ∨
      loop ∈ board.left := by
  simp only [loops, held, Table.values, List.mem_append, List.mem_flatMap, List.mem_map]
  constructor
  · rintro (⟨_, ⟨⟨id, owned⟩, there, rfl⟩, mem⟩ | mem)
    · exact .inl ⟨id, owned, (Table.mem_entries_iff ..).1 there, mem⟩
    · exact .inr mem
  · rintro (⟨id, owned, there, mem⟩ | mem)
    · exact .inl ⟨owned, ⟨(id, owned), (Table.mem_entries_iff ..).2 there, rfl⟩, mem⟩
    · exact .inr mem

/-- Tasks that have no timer have set none. -/
theorem unset_orderly {engine : Engine} {clock : WallClock} {board : ScheduleBoard}
    (h : board.Orderly engine clock) : (unset board).Orderly clock := by
  refine ⟨h.clock, fun id owned found => ?_, by simp [unset]⟩
  rw [unset, Table.get?_map, Option.map_eq_some_iff] at found
  obtain ⟨before, found, rfl⟩ := found
  exact .unset (h.tended id before found) clock

theorem forget_unset {board : ScheduleBoard} (ended : ∀ id, board.Ended id) :
    (unset board).forget = board := by
  have tasks : (unset board).tasks.forget LoopedTask.forget = board.tasks := by
    refine Table.ext_get? fun id => ?_
    rw [Registry.get?_forget, unset, Table.get?_map]
    cases found : board.tasks.get? id with
    | none => rfl
    | some owned =>
      simp only [Option.map_some, LoopedTask.forget, Option.elim_none, ← ended id owned found]
  simp only [forget, tasks]
  rfl

theorem held_unset (board : ScheduleBoard) : held (unset board).tasks = [] := by
  simp only [held, unset, Table.values, Table.map, List.map_map, List.flatMap_map]
  exact List.flatMap_eq_nil_iff.2 fun _ _ => rfl

end LoopedBoard

namespace Project

/-! ## Sessions -/

/-- All loops of the tasks of a project, followed through a session. -/
def follow (project : Project) (board : LoopedBoard) : List Event → LoopedBoard
  | [] => board
  | event :: rest =>
    (event.perform project).follow
      ((event.boardStep? project).elim board (LoopedBoard.perform · board)) rest

/-- What holds of followed loops all through a session. -/
theorem follow_keeps {clock : WallClock} {project : Project} {board : LoopedBoard}
    (orderly : board.Orderly clock) (same : board.forget = project.board) (events : List Event) :
    let after := project.follow board events
    after.Orderly clock ∧ after.forget = (project.session events).board ∧
      LoopedTask.Accounts (LoopedBoard.held board.tasks) (board.env, board.left)
        (LoopedBoard.held after.tasks) (after.env, after.left) := by
  induction events generalizing project board with
  | nil => exact ⟨orderly, same, .refl _ _⟩
  | cons event rest ih =>
    have performed := board_perform event project
    rw [follow]
    cases taken : event.boardStep? project with
    | none =>
      rw [taken] at performed
      exact ih orderly (same.trans performed.symm)
    | some step =>
      simp only [taken, Option.elim_some] at performed ⊢
      have forgotten : (board.perform step).forget = (event.perform project).board := by
        rw [LoopedBoard.perform_forget orderly, same, performed]
      obtain ⟨after, eq, accounts⟩ := ih (orderly.perform step) forgotten
      exact ⟨after, eq, (board.accounts_perform step).trans accounts⟩

theorem timersSet_of_loaded {root : String} {engine : Engine} {extend : Bool} {clock : WallClock}
    {disk : FileTree} {project : Project}
    (loaded : (load root engine extend clock).outcome? disk = some project) :
    project.board.env.timersSet = [] := by
  obtain ⟨settings, handlers, schedules, -, rfl⟩ := load_iff.1 loaded
  have stopped : { (blank root (engineFor engine extend settings) clock settings).board.env with
      dateFormat := settings.dateFormat }.active = false := rfl
  exact congrArg (·.timersSet) (ScheduleTask.load_stopped stopped .empty schedules).2

/-- In every session of a loaded project, the loops that are followed are those of all timers that
were ever set, and the timers of the board are those with a handle. Of the loops of a task that
is there one at most is not cancelled, and that has the delay, the period and the mode that were
planned, when it was set, after the very timing that the task has now; if that timing is invalid
there is none. All loops of tasks that are gone are cancelled. No firing of any started at or past
the end that was in force for its task. -/
theorem one_current_timer {root : String} {engine : Engine} {extend : Bool} {clock : WallClock}
    {disk : FileTree} {project : Project}
    (loaded : (load root engine extend clock).outcome? disk = some project) (events : List Event) :
    let followed := project.follow (.unset project.board) events
    followed.forget = (project.session events).board ∧
      (followed.loops.map (·.spec)).Perm (project.session events).board.env.timersSet ∧
      (∀ id owned, followed.tasks.get? id = some owned →
        let t := owned.entity
        (t.loops.filter (!·.cancelled)).length ≤ 1 ∧
        (∀ loop ∈ t.loops, loop.cancelled = false →
          t.task.resolved.problem = none ∧ loop.spec.async = t.task.timing.async ∧
            plan (clock.read loop.since) t.task.timing = .ok loop.spec.plan) ∧
        (t.task.resolved.Invalid → ∀ loop ∈ t.loops, loop.cancelled = true)) ∧
      (∀ loop ∈ followed.left, loop.cancelled = true) ∧
      ∀ loop ∈ followed.loops, ∀ f ∈ loop.fired,
        f.timing.isExpired (clock.read f.moment) = false := by
  intro followed
  obtain ⟨tended, -, ended⟩ := load_board loaded
  obtain ⟨orderly, same, accounts⟩ := follow_keeps (LoopedBoard.unset_orderly tended)
    (LoopedBoard.forget_unset ended) events
  refine ⟨same, ?_, fun id owned there => ?_, fun loop mem => (orderly.left loop mem).1, ?_⟩
  · have unset : (LoopedBoard.unset project.board).env.timersSet = [] := timersSet_of_loaded loaded
    rw [LoopedTask.Accounts, LoopedBoard.held_unset, unset, List.append_nil] at accounts
    rw [← same]
    exact accounts
  · obtain ⟨single, current⟩ := (orderly.tasks id owned there).one_current
    refine ⟨single, fun loop mem uncancelled => ?_, fun invalid loop mem => ?_⟩
    · exact ScheduleTask.nextTimer?_eq_some.1 (current loop mem uncancelled)
    · by_contra uncancelled
      have next := current loop mem (by simpa using uncancelled)
      rw [ScheduleTask.nextTimer?_of_invalid invalid] at next
      cases next
  · intro loop mem
    rcases LoopedBoard.mem_loops.1 mem with ⟨id, owned, there, mem⟩ | mem
    · exact (orderly.tasks id owned there).timely loop mem
    · exact (orderly.left loop mem).2

/-- A task that is given another time while it runs has set two timers; the first is cancelled
and the second fires. -/
theorem retimed_bell_has_one_timer : ∃ project,
    (load "/p" StandardActions.engine false (.standing 0)).outcome? (bell []) = some project ∧
      let events := [.start, retiming, .moveTo 5]
      let followed := project.follow (.unset project.board) events
      (followed.loops.map fun loop => (loop.spec.async, loop.cancelled,
          loop.fired.map (·.moment))) = [(true, false, [0]), (false, true, [])] ∧
        (followed.loops.map (·.spec)).Perm (project.session events).board.env.timersSet ∧
        ∀ id owned, followed.tasks.get? id = some owned →
          (owned.entity.loops.filter (!·.cancelled)).length ≤ 1 := by
  have followed : ((load "/p" StandardActions.engine false (.standing 0)).outcome? (bell [])).any
      (fun project => decide
        (((project.follow (.unset project.board)
          [.start, retiming, .moveTo 5]).loops.map fun loop =>
            (loop.spec.async, loop.cancelled, loop.fired.map (·.moment))) =
            [(true, false, [0]), (false, true, [])])) = true := by decide +kernel
  obtain ⟨project, loaded, followed⟩ := (Option.any_eq_true _ _).1 followed
  obtain ⟨-, all, tasks, -⟩ := one_current_timer loaded [.start, retiming, .moveTo 5]
  exact ⟨project, loaded, of_decide_eq_true followed, all, fun id owned there =>
    (tasks id owned there).1⟩

end Project
end ScriptHost
