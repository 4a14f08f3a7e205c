import ScriptHost.Proofs.Config.Changes
import ScriptHost.Proofs.Project.Registries
import ScriptHost.Schedule.Board
/-!
# What becomes of schedule tasks

What the operations of a board do to its tasks and to what they share. All that tasks ever do to
the latter is to set timers.

**What holds.** A task is `Settled` if it has what its own entry says. On a board in which every
task is, each under its own id, every operation keeps that.

**Results.**
* `ScheduleTask.create_ok_iff`, `start_eq`, `update_of_error`, `update_of_ok`: the operations on
  one task.
* `ScheduleTask.load_stopped`, `load_running`: a load makes the tasks of its documents, and starts
  them if tasks are to run.
* `ScheduleTask.sync_stopped`: taking over a file while tasks are not to run starts no task but
  those that it gives other times.
* `ScheduleBoard.activate_eq`, `deactivate_eq`, `moveTo_eq`: the operations on all tasks.
-/
namespace ScriptHost

/-! ## What tasks share -/

namespace ScheduleEnvironment

/-- More timers were set, and nothing else happened. -/
def Continues (env after : ScheduleEnvironment) : Prop :=
  ∃ more, after = { env with timersSet := env.timersSet ++ more }

variable {env middle after : ScheduleEnvironment}

theorem Continues.refl (env : ScheduleEnvironment) : Continues env env := ⟨[], by simp⟩

theorem Continues.trans (h : Continues env middle) (h' : Continues middle after) :
    Continues env after := by
  obtain ⟨first, rfl⟩ := h
  obtain ⟨second, rfl⟩ := h'
  exact ⟨first ++ second, by simp⟩

theorem Continues.active (h : Continues env after) : after.active = env.active := by
  obtain ⟨_, rfl⟩ := h; rfl

theorem Continues.engine (h : Continues env after) : after.engine = env.engine := by
  obtain ⟨_, rfl⟩ := h; rfl

theorem Continues.clock (h : Continues env after) : after.clock = env.clock := by
  obtain ⟨_, rfl⟩ := h; rfl

theorem Continues.dateFormat (h : Continues env after) : after.dateFormat = env.dateFormat := by
  obtain ⟨_, rfl⟩ := h; rfl

end ScheduleEnvironment

open ScheduleEnvironment

/-! ## One task -/

namespace ScheduleTask

variable {task : ScheduleTask} {env env' : ScheduleEnvironment} {id : String} {entry : ConfigEntry}

/-- A task has what its own entry says, where `dateFormat` is the common pattern of dates. -/
structure Settled (dateFormat id : String) (task : ScheduleTask) : Prop where
  named : task.id = id
  pattern : task.dateFormat = dateFormat
  decoded : ScheduleConfig.ofEntry id task.entry = .ok task.config
  timed : task.resolved = task.config.resolve dateFormat

/-- The program that a task has with a configuration, if its source compiles then. -/
def programWith (task : ScheduleTask) (engine : Engine) (config : ScheduleConfig) :
    Option Program :=
  ({ task with config }.source.compile engine).toOption

theorem recompile_eq (task : ScheduleTask) (engine : Engine) : task.recompile engine =
    { task with program := (task.programWith engine task.config).or task.program } := by
  unfold recompile programWith
  cases task.source.compile engine <;> rfl

/-- The task of an entry with the configuration that was read from it, before it is compiled. -/
def ofConfig (dateFormat id : String) (entry : ConfigEntry) (config : ScheduleConfig) :
    ScheduleTask where
  id
  entry
  config
  dateFormat
  resolved := config.resolve dateFormat

theorem create_ok_iff : create env id entry = .ok task ↔
    ∃ config, ScheduleConfig.ofEntry id entry = .ok config ∧
      task = (ofConfig env.dateFormat id entry config).recompile env.engine := by
  unfold create
  cases ScheduleConfig.ofEntry id entry with
  | error problem => exact ⟨nofun, nofun⟩
  | ok config =>
    constructor
    · exact fun made => ⟨config, rfl, (Except.ok.inj made).symm⟩
    · rintro ⟨_, ⟨⟩, rfl⟩
      rfl

theorem create_settled (made : create env id entry = .ok task) :
    Settled env.dateFormat id task ∧ task.entry = entry ∧ task.timer = .ended := by
  obtain ⟨config, read, rfl⟩ := create_ok_iff.1 made
  rw [recompile_eq]
  exact ⟨⟨rfl, rfl, read, rfl⟩, rfl, rfl⟩

/-- The task started at a moment: it has the timer that it is to have, if it is to have one. -/
def started (task : ScheduleTask) (instant : Int) (moment : Nat) : ScheduleTask :=
  { task with timer := (task.nextTimer? instant).elim .ended (·.set moment) }

theorem start_eq (task : ScheduleTask) (env : ScheduleEnvironment) :
    task.start env = (task.started env.wallTime env.now,
      { env with timersSet := env.timersSet ++ (task.nextTimer? env.wallTime).toList }) := by
  unfold start started
  cases task.nextTimer? env.wallTime <;> simp [terminate]

theorem continues_start (task : ScheduleTask) (env : ScheduleEnvironment) :
    Continues env (task.start env).2 := by
  rw [start_eq]
  exact ⟨_, rfl⟩

theorem continues_startIfActive (task : ScheduleTask) (env : ScheduleEnvironment) :
    Continues env (task.startIfActive env).2 := by
  unfold startIfActive
  split
  · exact task.continues_start env
  · exact .refl env

theorem startIfActive_of_not (stopped : env.active = false) (task : ScheduleTask) :
    task.startIfActive env = (task, env) := by
  simp [startIfActive, stopped]

theorem startIfActive_fst (task : ScheduleTask) (env : ScheduleEnvironment) :
    ∃ timer, (task.startIfActive env).1 = { task with timer } := by
  unfold startIfActive
  split
  · rw [start_eq]
    exact ⟨_, rfl⟩
  · exact ⟨task.timer, rfl⟩

/-- The task with an entry that it was given, before it is started anew. -/
def given (task : ScheduleTask) (entry : ConfigEntry) (config : ScheduleConfig)
    (engine : Engine) : ScheduleTask :=
  { task with
    entry, config
    resolved := config.resolve task.dateFormat
    program :=
      if (ScheduleChanges.ofKeys (task.entry.changedKeys entry)).recompile
        then (task.programWith engine config).or task.program
        else task.program }

theorem update_of_error {problem : ConfigError}
    (bad : ScheduleConfig.ofEntry task.id entry = .error problem) :
    task.update entry env = (task, env, {}) := by
  simp only [update, bad]

/-- An entry that can be read is given to the task, which starts anew if its times changed. -/
theorem update_of_ok {config : ScheduleConfig}
    (good : ScheduleConfig.ofEntry task.id entry = .ok config) :
    task.update entry env =
      let changes := ScheduleChanges.ofKeys (task.entry.changedKeys entry)
      let task := task.given entry config env.engine
      let (task, env) := if changes.restart then task.start env else (task, env)
      (task, env, changes) := by
  unfold update given
  simp only [good]
  generalize ScheduleChanges.ofKeys (task.entry.changedKeys entry) = changes
  by_cases recompiles : changes.recompile
  · simp only [recompiles, if_true, recompile_eq]
    rfl
  · simp only [recompiles, Bool.false_eq_true, if_false]

/-- If none of the keys of the times changed, the task has the same times. -/
theorem resolved_given {config : ScheduleConfig} {engine : Engine}
    (decoded : ScheduleConfig.ofEntry task.id task.entry = .ok task.config)
    (timed : task.resolved = task.config.resolve task.dateFormat)
    (read : ScheduleConfig.ofEntry task.id entry = .ok config)
    (kept : (ScheduleChanges.ofKeys (task.entry.changedKeys entry)).restart = false) :
    (task.given entry config engine).resolved = task.resolved := by
  have agree : ∀ key ∈ ScheduleChanges.timingKeys, task.entry.agreesOn entry key := by
    intro key timing
    refine ConfigEntry.agreesOn_of_not_changed fun changed => ?_
    rw [ScheduleChanges.restart_ofKeys.2 ⟨key, changed, timing⟩] at kept
    cases kept
  have same := ScheduleConfig.times_of_agrees decoded read agree
  rw [timed]
  show config.resolve task.dateFormat = _
  rw [same]
  rfl

/-- What giving a task an entry comes to. Only if the times changed is its timer another one. -/
theorem update_cases (task : ScheduleTask) (entry : ConfigEntry) (env : ScheduleEnvironment) :
    (∃ problem, ScheduleConfig.ofEntry task.id entry = .error problem ∧
      task.update entry env = (task, env, {})) ∨
    ∃ config, ScheduleConfig.ofEntry task.id entry = .ok config ∧
      Continues env (task.update entry env).2.1 ∧
      ∃ program timer, (task.update entry env).1 =
          { task with entry, config, resolved := config.resolve task.dateFormat, program, timer } ∧
        (timer = task.timer ∨
          ∃ key ∈ task.entry.changedKeys entry, key ∈ ScheduleChanges.timingKeys) := by
  cases read : ScheduleConfig.ofEntry task.id entry with
  | error problem => exact .inl ⟨problem, rfl, update_of_error read⟩
  | ok config =>
    refine .inr ⟨config, rfl, ?_⟩
    rw [update_of_ok read]
    by_cases restart : (ScheduleChanges.ofKeys (task.entry.changedKeys entry)).restart
    · simp only [restart, if_true]
      refine ⟨continues_start _ env, _, _, congrArg Prod.fst (start_eq _ env), .inr ?_⟩
      exact ScheduleChanges.restart_ofKeys.1 restart
    · simp only [restart, Bool.false_eq_true, if_false]
      exact ⟨.refl env, _, task.timer, rfl, .inl rfl⟩

theorem continues_update (task : ScheduleTask) (entry : ConfigEntry) (env : ScheduleEnvironment) :
    Continues env (task.update entry env).2.1 := by
  rcases task.update_cases entry env with ⟨_, -, eq⟩ | ⟨_, -, continues, -⟩
  · rw [eq]
    exact .refl env
  · exact continues

theorem update_settled {dateFormat : String} (settled : Settled dateFormat id task) :
    Settled dateFormat id (task.update entry env).1 := by
  rcases task.update_cases entry env with ⟨_, -, eq⟩ | ⟨config, read, -, program, timer, eq, -⟩
  · rw [eq]
    exact settled
  · rw [eq]
    exact ⟨settled.named, settled.pattern, settled.named ▸ read, by rw [settled.pattern]⟩

theorem runTo_of_ended (ended : task.timer = .ended) (clock : WallClock) (moment : Nat) :
    task.runTo clock moment = (task, []) := by
  cases task
  simp only at ended
  subst ended
  rfl

theorem started_fst (task : ScheduleTask) (instant : Int) (moment : Nat) :
    ∃ timer busyUntil, task.started instant moment = { task with timer, busyUntil } :=
  ⟨_, _, rfl⟩

theorem runTo_fst (task : ScheduleTask) (clock : WallClock) (moment : Nat) :
    ∃ timer busyUntil, (task.runTo clock moment).1 = { task with timer, busyUntil } :=
  ⟨_, _, rfl⟩

end ScheduleTask

/-! ## All tasks -/

namespace ScheduleTask

variable {registry : Registry ScheduleTask} {env env' : ScheduleEnvironment} {id : String}
  {files : List (String × ConfigDocument)}

/-- Every task is settled, each under its own id. -/
def Tended (dateFormat : String) (registry : Registry ScheduleTask) : Prop :=
  ∀ id owned, registry.get? id = some owned → Settled dateFormat id owned.entity

theorem Tended.insert {dateFormat file : String} {task : ScheduleTask}
    (h : Tended dateFormat registry) (settled : Settled dateFormat id task) :
    Tended dateFormat (registry.insert id ⟨file, task⟩) :=
  Table.forall_insert h settled

theorem Tended.erase {dateFormat : String} (h : Tended dateFormat registry) :
    Tended dateFormat (registry.erase id) :=
  Table.forall_erase h

theorem Tended.map {dateFormat : String} (h : Tended dateFormat registry)
    {f : ScheduleTask → ScheduleTask}
    (same : ∀ task, ∃ timer busyUntil, f task = { task with timer, busyUntil }) :
    Tended dateFormat (registry.map fun _ owned => ⟨owned.file, f owned.entity⟩) := by
  intro other owned found
  rw [Table.get?_map, Option.map_eq_some_iff] at found
  obtain ⟨before, found, rfl⟩ := found
  obtain ⟨timer, busyUntil, eq⟩ := same before.entity
  have settled := h _ _ found
  exact eq ▸ ⟨settled.named, settled.pattern, settled.decoded, settled.timed⟩

theorem create_cases {made : Option ScheduleTask} {entry : ConfigEntry}
    (h : kind.create id entry env = (made, env')) :
    env' = env ∧ (made = none ∨ ∃ task, made = some task ∧ create env id entry = .ok task) := by
  simp only [kind] at h
  cases created : create env id entry with
  | error _ => simp_all
  | ok task => simp_all

/-! ### Loading -/

/-- The tasks that documents make, before any is started. -/
def fromFiles (env : ScheduleEnvironment) (files : List (String × ConfigDocument)) :
    Registry ScheduleTask :=
  (files.foldl (Registry.loadFile kind) ⟨.empty, env, {}⟩).registry

/-- What holds of every task that is made holds of all tasks that documents make. Making them
changes nothing that tasks share. -/
theorem forall_fromFiles {P : String → ScheduleTask → Prop} (env : ScheduleEnvironment)
    (holds : ∀ {id entry task}, create env id entry = .ok task → P id task)
    (files : List (String × ConfigDocument)) :
    (files.foldl (Registry.loadFile kind) ⟨.empty, env, {}⟩).surroundings = env ∧
      ∀ id owned, (fromFiles env files).get? id = some owned → P id owned.entity := by
  let start : Registry.Loading ScheduleEnvironment ScheduleTask := ⟨.empty, env, {}⟩
  refine Registry.loadFiles_keeps (l := start)
    (I := fun r s => s = env ∧ ∀ id owned, r.get? id = some owned → P id owned.entity)
    (fun h made => ?_) (fun h new made => ?_) files ⟨rfl, fun _ _ => nofun⟩
  · obtain ⟨rfl, -⟩ := create_cases made
    exact h
  · obtain ⟨rfl, all⟩ := h
    obtain ⟨rfl, ⟨⟨⟩⟩ | ⟨task, ⟨⟩, created⟩⟩ := create_cases made
    exact ⟨rfl, Table.forall_insert all (holds created)⟩

theorem fromFiles_keeps (env : ScheduleEnvironment) (files : List (String × ConfigDocument)) :
    (files.foldl (Registry.loadFile kind) ⟨.empty, env, {}⟩).surroundings = env ∧
      Tended env.dateFormat (fromFiles env files) ∧
      ∀ id owned, (fromFiles env files).get? id = some owned → owned.entity.timer = .ended := by
  obtain ⟨same, tended⟩ := forall_fromFiles env (fun created => (create_settled created).1) files
  have ended := forall_fromFiles (P := fun _ task => task.timer = .ended) env
    (fun created => (create_settled created).2.2) files
  exact ⟨same, tended, ended.2⟩

/-- Tasks depend on the engine and the common pattern of dates only. -/
theorem fromFiles_congr (engine : env.engine = env'.engine)
    (dateFormat : env.dateFormat = env'.dateFormat) (files : List (String × ConfigDocument)) :
    fromFiles env files = fromFiles env' files := by
  let move (l : Registry.Loading ScheduleEnvironment ScheduleTask) :
      Registry.Loading ScheduleEnvironment ScheduleTask :=
    { l with surroundings :=
        { env' with engine := l.surroundings.engine, dateFormat := l.surroundings.dateFormat } }
  have moved (l file) :
      Registry.loadFile kind (move l) file = move (Registry.loadFile kind l file) := by
    refine List.foldl_hom move fun l definition => ?_
    obtain ⟨name, value⟩ := definition
    have same (entry : ConfigEntry) :
        create (move l).surroundings name entry = create l.surroundings name entry := rfl
    simp only [Registry.loadDefinition, kind, same]
    cases ConfigEntry.ofValue? value with
    | none => rfl
    | some entry =>
      simp only
      split
      · rfl
      · split
        · rfl
        · cases create l.surroundings name entry <;> rfl
  have start : (⟨.empty, env', {}⟩ : Registry.Loading ScheduleEnvironment ScheduleTask) =
      move ⟨.empty, env, {}⟩ := by
    simp only [move, engine, dateFormat]
  unfold fromFiles
  rw [start, List.foldl_hom move moved]

/-- The timers that the tasks of a registry are to have as seen at an instant. -/
def timersOf (registry : Registry ScheduleTask) (instant : Int) : List TimerSpec :=
  registry.values.flatMap fun owned => (owned.entity.nextTimer? instant).toList

theorem startEntries_eq : ∀ (entries : List (String × Owned ScheduleTask))
    (env : ScheduleEnvironment),
    Table.mapFoldEntries (fun _ (owned : Owned ScheduleTask) (s : ScheduleEnvironment) =>
        ((⟨owned.file, owned.entity.started s.wallTime s.now⟩ : Owned ScheduleTask),
          { s with timersSet := s.timersSet ++ (owned.entity.nextTimer? s.wallTime).toList }))
        entries env =
      (entries.map fun e => (e.1, ⟨e.2.file, e.2.entity.started env.wallTime env.now⟩),
        { env with timersSet := env.timersSet ++
            entries.flatMap fun e => (e.2.entity.nextTimer? env.wallTime).toList })
  | [], env => by simp [Table.mapFoldEntries]
  | (name, owned) :: rest, env => by
    simp only [Table.mapFoldEntries, startEntries_eq rest, List.map_cons, List.flatMap_cons,
      List.append_assoc]
    rfl

theorem startAll_eq (registry : Registry ScheduleTask) (env : ScheduleEnvironment) :
    Registry.mapEntities start registry env =
      (registry.map fun _ owned => ⟨owned.file, owned.entity.started env.wallTime env.now⟩,
        { env with timersSet := env.timersSet ++ timersOf registry env.wallTime }) := by
  simp only [Registry.mapEntities_fold, Table.mapFold, start_eq, startEntries_eq, timersOf,
    Table.values, List.flatMap_map]
  rfl

theorem retireAll_eq (registry : Registry ScheduleTask) (env : ScheduleEnvironment) :
    Registry.retireAll kind registry env = env := by
  refine List.foldlRecOn (motive := (· = env)) registry.values _ rfl fun s h _ _ => ?_
  exact h

/-- While tasks are not to run, a load makes those of its documents. -/
theorem load_stopped (stopped : env.active = false) (registry : Registry ScheduleTask)
    (files : List (String × ConfigDocument)) :
    (registry.load kind files env).registry = fromFiles env files ∧
      (registry.load kind files env).surroundings = env := by
  have same := (fromFiles_keeps env files).1
  have each : Registry.mapEntities startIfActive (fromFiles env files) env =
      (fromFiles env files, env) := by
    rw [← Registry.mapEntities_quiet (fromFiles env files) env]
    refine Registry.mapEntities_congr (J := (· = env)) (fun task s h => ?_) _ rfl
    rw [startIfActive_of_not (h ▸ stopped)]
    exact ⟨rfl, h⟩
  simp only [Registry.load, retireAll_eq, same]
  exact ⟨congrArg Prod.fst each, congrArg Prod.snd each⟩

/-- While tasks are to run, a load makes those of its documents and starts them. -/
theorem load_running (running : env.active = true) (registry : Registry ScheduleTask)
    (files : List (String × ConfigDocument)) :
    (registry.load kind files env).registry = (fromFiles env files).map (fun _ owned =>
        ⟨owned.file, owned.entity.started env.wallTime env.now⟩) ∧
      (registry.load kind files env).surroundings =
        { env with timersSet := env.timersSet ++ timersOf (fromFiles env files) env.wallTime } := by
  have same := (fromFiles_keeps env files).1
  have each := startAll_eq (fromFiles env files) env
  have started : Registry.mapEntities startIfActive (fromFiles env files) env =
      Registry.mapEntities start (fromFiles env files) env := by
    refine Registry.mapEntities_congr (J := Continues env) (fun task s h => ?_) _ (.refl env)
    have eq : task.startIfActive s = task.start s := by simp [startIfActive, h.active, running]
    exact ⟨eq, eq ▸ h.trans (task.continues_start s)⟩
  rw [← started] at each
  simp only [Registry.load, retireAll_eq, same]
  exact ⟨congrArg Prod.fst each, congrArg Prod.snd each⟩

theorem continues_load (registry : Registry ScheduleTask) (files : List (String × ConfigDocument))
    (env : ScheduleEnvironment) : Continues env (registry.load kind files env).surroundings := by
  cases active : env.active with
  | false =>
    rw [(load_stopped active registry files).2]
    exact .refl env
  | true =>
    rw [(load_running active registry files).2]
    exact ⟨_, rfl⟩

theorem load_tended (registry : Registry ScheduleTask) (files : List (String × ConfigDocument))
    (env : ScheduleEnvironment) :
    Tended env.dateFormat (registry.load kind files env).registry := by
  have tended := (fromFiles_keeps env files).2.1
  cases active : env.active with
  | false => exact (load_stopped active registry files).1 ▸ tended
  | true =>
    rw [(load_running active registry files).1]
    exact tended.map fun task => task.started_fst env.wallTime env.now

/-! ### Taking over one file -/

theorem created_cases {entry : ConfigEntry} {task : ScheduleTask}
    (h : kind.create id entry env = (some task, env')) :
    env' = env ∧ Settled env.dateFormat id (kind.activate task env').1 ∧
      Continues env (kind.activate task env').2 ∧
      (env.active = false → (kind.activate task env').1.timer = .ended) := by
  obtain ⟨rfl, ⟨⟨⟩⟩ | ⟨_, ⟨⟩, created⟩⟩ := create_cases h
  obtain ⟨settled, -, fresh⟩ := create_settled created
  refine ⟨rfl, ?_, task.continues_startIfActive env', fun stopped => ?_⟩
  · obtain ⟨timer, eq⟩ := task.startIfActive_fst env'
    exact eq ▸ ⟨settled.named, settled.pattern, settled.decoded, settled.timed⟩
  · change (task.startIfActive env').1.timer = .ended
    rw [startIfActive_of_not stopped]
    exact fresh

theorem sync_keeps (tended : Tended env.dateFormat registry) (file : String)
    (document : ConfigDocument) :
    Continues env (registry.sync kind file document env).surroundings ∧
      Tended env.dateFormat (registry.sync kind file document env).registry := by
  refine Registry.sync_keeps
    (I := fun r s => Continues env s ∧ Tended env.dateFormat r)
    (fun h found _ _ _ => ?_) (fun h _ => ⟨h.1, h.2.erase⟩) (fun h made => ?_)
    (fun h _ made => ?_) ⟨.refl env, tended⟩
  · exact ⟨h.1.trans (continues_update ..), h.2.insert (update_settled (h.2 _ _ found))⟩
  · exact (create_cases made).1 ▸ h
  · obtain ⟨-, settled, continues, -⟩ := created_cases made
    exact ⟨h.1.trans continues, h.2.insert (h.1.dateFormat ▸ settled)⟩

/-- A file that owns a task gives it a valid entry with other times. -/
def Retimed (registry : Registry ScheduleTask) (file : String) (document : ConfigDocument)
    (id : String) : Prop :=
  ∃ owned entry config, registry.get? id = some owned ∧ Path.same owned.file file ∧
    Registry.definition? document id = some entry ∧
    ScheduleConfig.ofEntry id entry = .ok config ∧
    ∃ key ∈ owned.entity.entry.changedKeys entry, key ∈ ScheduleChanges.timingKeys

/-- While tasks are not to run, taking over a file starts no task but those that it gives other
times. -/
theorem sync_stopped (stopped : env.active = false) (tended : Tended env.dateFormat registry)
    {file : String} {document : ConfigDocument} (same : ¬ Retimed registry file document id)
    (ended : ∀ owned, registry.get? id = some owned → owned.entity.timer = .ended) :
    ∀ owned, (registry.sync kind file document env).registry.get? id = some owned →
      owned.entity.timer = .ended := by
  refine (Registry.sync_keeps
    (I := fun (r : Registry ScheduleTask) s => Continues env s ∧
      ∀ owned, r.get? id = some owned → owned.entity.timer = .ended)
    (fun {r s other before entry} h found original own defined => ?_)
    (fun {r s other before} h found => ?_) (fun h made => ?_)
    (fun h _ made => ?_) ⟨.refl env, ended⟩).2
  · refine ⟨h.1.trans (continues_update ..), fun owned there => ?_⟩
    rw [Table.get?_insert] at there
    split at there
    · rename_i isId
      subst isId
      cases there
      change (before.entity.update entry s).1.timer = .ended
      rcases before.entity.update_cases entry s with
        ⟨_, -, eq⟩ | ⟨config, read, -, program, timer, eq, kept | changed⟩
      · rw [eq]
        exact ended before original
      · rw [eq]
        exact kept.trans (ended before original)
      · exact absurd ⟨before, entry, config, original, own, defined,
          (tended _ _ original).named ▸ read, changed⟩ same
    · exact h.2 owned there
  · refine ⟨h.1, fun owned there => ?_⟩
    rw [Table.get?_erase] at there
    split at there
    · cases there
    · exact h.2 owned there
  · exact (create_cases made).1 ▸ h
  · obtain ⟨-, -, continues, fresh⟩ := created_cases made
    refine ⟨h.1.trans continues, fun owned there => ?_⟩
    rw [Table.get?_insert] at there
    split at there
    · cases there
      exact fresh (h.1.active.trans stopped)
    · exact h.2 owned there

end ScheduleTask

/-! ## Boards -/

namespace ScheduleBoard

variable {board : ScheduleBoard} {id : String}

theorem activate_eq (board : ScheduleBoard) : board.activate =
    { env := { board.env with
        active := true
        timersSet := board.env.timersSet ++ ScheduleTask.timersOf board.tasks board.env.wallTime }
      tasks := board.tasks.map fun _ owned =>
        ⟨owned.file, owned.entity.started board.env.wallTime board.env.now⟩ } := by
  unfold activate mapTasks
  rw [ScheduleTask.startAll_eq]
  rfl

theorem deactivate_eq (board : ScheduleBoard) : board.deactivate =
    { env := { board.env with active := false }
      tasks := board.tasks.map fun _ owned => ⟨owned.file, owned.entity.terminate⟩ } := by
  unfold deactivate mapTasks
  obtain ⟨tasks, env⟩ := Registry.mapEntities_eq (g := ScheduleTask.terminate)
    (f := fun task env => (task.terminate, env)) (J := (· = { board.env with active := false }))
    (fun _ _ h => ⟨rfl, h⟩) board.tasks rfl
  simp only [tasks, env]

/-- Time goes on: every task is moved on by itself, and only the screen changes besides. -/
theorem moveTo_eq (board : ScheduleBoard) (moment : Nat) : ∃ screen, screen.now = moment ∧
    (board.moveTo moment).1 =
    { env := { board.env with screen }
      tasks := board.tasks.map fun _ owned =>
        ⟨owned.file, (owned.entity.runTo board.env.clock moment).1⟩ } := by
  unfold moveTo mapTasks
  obtain ⟨tasks, screen, env⟩ := Registry.mapEntities_eq
    (g := fun task => (task.runTo board.env.clock moment).1)
    (f := fun task env => ((task.runTo env.clock moment).1,
      { env with screen := env.screen.announce (task.runTo env.clock moment).2 }))
    (J := fun env => ∃ screen, env = { board.env with screen })
    (fun task env ⟨screen, h⟩ => by subst h; exact ⟨rfl, _, rfl⟩)
    board.tasks ⟨board.env.screen, rfl⟩
  refine ⟨(screen.moveTo moment).1, rfl, ?_⟩
  simp only [tasks, env]

end ScheduleBoard
end ScriptHost
