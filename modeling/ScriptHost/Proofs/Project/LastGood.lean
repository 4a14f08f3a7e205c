import ScriptHost.Proofs.Dispatch.Sparing
import ScriptHost.Proofs.Project.Refilling
import ScriptHost.Proofs.Schedule.Tasks
/-!
# The last good configuration

A handler or a task is given entries one after the other, some of which cannot be read and some
of which have a script that does not compile. An update recompiles only if a key of the script
changed, and it compares with the entry that is kept, whether or not that one compiled.

**What holds.** `LastGood`: the unit keeps the last entry that could be read, the configuration
of it, and the program of the last configuration that has one. Nothing is missed by not
recompiling: a configuration whose script is the same has the same program, and if that is none,
the one before it stays anyway (`LastGood.own`).

**Lives.** `DispatchGraph.HandlerLife`, `ScheduleTask.TaskLife`: the entries that a unit was
given, the first when it was made, and all that may happen in between.

**Results.**
* `DispatchGraph.HandlerLife.lastGood`, `ScheduleTask.TaskLife.lastGood`: one for each life.
* `units_keep_the_last_good`: both, and that an entry that cannot be read changes nothing.
-/
namespace ScriptHost

section LastGood

variable {α : Type} {decode : ConfigEntry → Option α} {compile : α → Option Program}
  {entries : List ConfigEntry} {entry new : ConfigEntry} {config config' : α}
  {program : Option Program}

/-- What a unit has after some entries, given one after the other: the last one that can be read
and its configuration, and the last program of such a configuration. -/
structure LastGood (decode : ConfigEntry → Option α) (compile : α → Option Program)
    (entries : List ConfigEntry) (entry : ConfigEntry) (config : α)
    (program : Option Program) : Prop where
  accepted : (entries.filter fun e => (decode e).isSome).getLast? = some entry
  configured : (entries.filterMap decode).getLast? = some config
  live : program = ((entries.filterMap decode).filterMap compile).getLast?

namespace LastGood

theorem made (good : decode entry = some config) :
    LastGood decode compile [entry] entry config (compile config) := by
  refine ⟨by simp [good], by simp [good], ?_⟩
  cases compiled : compile config <;> simp [good, compiled]

theorem rejected (h : LastGood decode compile entries entry config program)
    (bad : decode new = none) :
    LastGood decode compile (entries ++ [new]) entry config program := by
  refine ⟨?_, ?_, ?_⟩
  · simpa [bad] using h.accepted
  · simpa [bad] using h.configured
  · simpa [bad] using h.live

theorem recompiled (h : LastGood decode compile entries entry config program)
    (good : decode new = some config') :
    LastGood decode compile (entries ++ [new]) new config' ((compile config').or program) := by
  refine ⟨by simp [good], by simp [good], ?_⟩
  rw [h.live]
  cases compiled : compile config' <;> simp [good, compiled, List.filterMap_append]

/-- If the present configuration has a program at all, that is the one that is kept. -/
theorem own (h : LastGood decode compile entries entry config program) :
    (compile config).or program = program := by
  cases compiled : compile config with
  | none => rfl
  | some own =>
    obtain ⟨before, eq⟩ := List.getLast?_eq_some_iff.1 h.configured
    rw [h.live, eq]
    simp [compiled, List.filterMap_append]

/-- Not recompiling misses nothing if the program would be the same. -/
theorem unchanged (h : LastGood decode compile entries entry config program)
    (good : decode new = some config') (same : compile config' = compile config) :
    LastGood decode compile (entries ++ [new]) new config' program := by
  have all := h.recompiled good
  rwa [same, h.own] at all

end LastGood

end LastGood

/-! ## Handlers -/

/-- What a handler has with a configuration depends on its id alone, and on no more of the
configuration than its script. -/
theorem Handler.programWith_congr {handler handler' : Handler} {engine : Engine}
    {config config' : HandlerConfig} (id : handler.id = handler'.id)
    (same : config' = { config with bind := config'.bind, priority := config'.priority }) :
    handler'.programWith engine config' = handler.programWith engine config := by
  unfold Handler.programWith Handler.source Handler.routine
  rw [same, id]

namespace DispatchGraph

variable {g g' : DispatchGraph} {h k : Key .handler} {id : String} {entries : List ConfigEntry}

/-- What may happen to a graph besides a handler's being given an entry or let go: all other
handlers come, change and go, dispatchers are registered, and any handler may be bound anew. -/
inductive Meanwhile (k : Key .handler) (g : DispatchGraph) : DispatchGraph → Prop where
  | create {id : String} {entry : ConfigEntry} {after : DispatchGraph}
    (made : g.create id entry = .ok after) : Meanwhile k g after
  | update {h : Key .handler} (other : h ≠ k) (entry : ConfigEntry) :
    Meanwhile k g (g.update h entry).1
  | drop {h : Key .handler} (other : h ≠ k) : Meanwhile k g (g.drop h)
  | rebind (h : Key .handler) (reorder : Bool) : Meanwhile k g (g.rebind h reorder)
  | unbindAll (h : Key .handler) : Meanwhile k g (g.unbindAll h)
  | registerOnly (ids : List String) : Meanwhile k g (g.registerOnly ids)
  | recompileEach (keys : List (Key .dispatcher)) : Meanwhile k g (g.recompileEach keys)

theorem Meanwhile.spares (step : Meanwhile k g g') : Spares k g g' := by
  cases step with
  | create made => exact .create made
  | update other entry => exact .update other g entry
  | drop other =>
    refine ⟨rfl, fun handler found => ⟨handler.bound, ?_⟩⟩
    simp [DispatchGraph.drop, Ne.symm other, found]
  | rebind h reorder => exact .rebind g h reorder
  | unbindAll h => exact .unbindAll g h
  | registerOnly ids =>
    have registers := Registers.registerOnly g ids
    exact ⟨registers.engine, fun handler found => ⟨handler.bound, registers.handlers ▸ found⟩⟩
  | recompileEach keys => exact .of_framed (.recompileEach keys g)

/-- The life of a handler: the entries that it was given, the first when it was made, and the
graph in which it is then. -/
inductive HandlerLife (k : Key .handler) (id : String) :
    List ConfigEntry → DispatchGraph → Prop where
  | create {g after : DispatchGraph} {entry : ConfigEntry} (key : g.handlers.nextKey = k)
    (made : g.create id entry = .ok after) : HandlerLife k id [entry] after
  | update {entries : List ConfigEntry} {g : DispatchGraph} (life : HandlerLife k id entries g)
    (entry : ConfigEntry) : HandlerLife k id (entries ++ [entry]) (g.update k entry).1
  | meanwhile {entries : List ConfigEntry} {g after : DispatchGraph}
    (life : HandlerLife k id entries g) (step : Meanwhile k g after) :
    HandlerLife k id entries after

/-- A handler that is there with its id, and has what its entries say. -/
structure KeepsLastGood (k : Key .handler) (id : String) (entries : List ConfigEntry)
    (g : DispatchGraph) (handler : Handler) : Prop where
  found : g.handlers.get? k = some handler
  named : handler.id = id
  configured : HandlerConfig.ofEntry id handler.entry = .ok handler.config
  good : LastGood (fun entry => (HandlerConfig.ofEntry id entry).toOption)
    (handler.programWith g.engine) entries handler.entry handler.config handler.program

theorem keepsLastGood_create {entry : ConfigEntry} (made : g.create id entry = .ok g') :
    ∃ handler, KeepsLastGood g.handlers.nextKey id [entry] g' handler := by
  obtain ⟨config, middle, read, touched, follows⟩ := create_follows made
  have found := touched.handlers g.handlers.nextKey
  rw [if_pos rfl] at found
  have spares := follows g.handlers.nextKey
  obtain ⟨bound, found⟩ := spares.handler _ found
  refine ⟨_, found, rfl, read, ?_⟩
  rw [spares.engine, touched.engine]
  exact .made (toOption_eq_some.2 read)

theorem KeepsLastGood.update {handler : Handler} (h : KeepsLastGood k id entries g handler)
    (entry : ConfigEntry) :
    ∃ handler, KeepsLastGood k id (entries ++ [entry]) (g.update k entry).1 handler := by
  obtain ⟨found, rfl, configured, good⟩ := h
  cases read : HandlerConfig.ofEntry handler.id entry with
  | error problem =>
    rw [update_of_error found read]
    exact ⟨handler, found, rfl, configured, good.rejected (toOption_eq_none read)⟩
  | ok config =>
    obtain ⟨middle, touched, follows⟩ := update_follows found read
    have found' := touched.handlers k
    rw [if_pos rfl] at found'
    obtain ⟨bound, found'⟩ := (follows k).handler _ found'
    refine ⟨_, found', rfl, read, ?_⟩
    rw [engine_update]
    have decoded := toOption_eq_some.2 read
    by_cases recompiles : (HandlerChanges.ofKeys (handler.entry.changedKeys entry)).recompile
    · simp only [recompiles, if_true]
      exact good.recompiled decoded
    · simp only [recompiles, Bool.false_eq_true, if_false]
      rw [HandlerChanges.recompile_ofKeys] at recompiles
      push Not at recompiles
      -- no key of the script changed since the entry that is kept, whatever became of that
      have same := HandlerConfig.script_of_agrees configured read fun key mem =>
        ConfigEntry.agreesOn_of_not_changed fun changed => recompiles key changed mem
      exact good.unchanged decoded (Handler.programWith_congr rfl same)

theorem HandlerLife.lastGood (life : HandlerLife k id entries g) :
    ∃ handler, KeepsLastGood k id entries g handler := by
  induction life with
  | create key made =>
    subst key
    exact keepsLastGood_create made
  | update life entry ih =>
    obtain ⟨handler, h⟩ := ih
    exact h.update entry
  | meanwhile life step ih =>
    obtain ⟨handler, found, rfl, configured, good⟩ := ih
    obtain ⟨bound, found'⟩ := step.spares.handler handler found
    refine ⟨_, found', rfl, configured, ?_⟩
    rw [step.spares.engine]
    exact good

end DispatchGraph

/-! ## Tasks -/

namespace ScheduleTask

variable {task : ScheduleTask} {engine : Engine} {id : String} {entries : List ConfigEntry}

theorem programWith_congr {task' : ScheduleTask} {config config' : ScheduleConfig}
    (id : task.id = task'.id) (namespaces : config.namespaces = config'.namespaces)
    (execute : config.execute = config'.execute) :
    task'.programWith engine config' = task.programWith engine config := by
  unfold programWith source
  rw [namespaces, execute, id]

/-- The life of a task: the entries that it was given, the first when it was made, and what it is
then. It may be started and ended, and time goes on. -/
inductive TaskLife (engine : Engine) (id : String) : List ConfigEntry → ScheduleTask → Prop where
  | create {env : ScheduleEnvironment} {entry : ConfigEntry} {task : ScheduleTask}
    (same : env.engine = engine) (made : create env id entry = .ok task) :
    TaskLife engine id [entry] task
  | update {entries : List ConfigEntry} {task : ScheduleTask}
    (life : TaskLife engine id entries task)
    {env : ScheduleEnvironment} (same : env.engine = engine) (entry : ConfigEntry) :
    TaskLife engine id (entries ++ [entry]) (task.update entry env).1
  | start {entries : List ConfigEntry} {task : ScheduleTask}
    (life : TaskLife engine id entries task)
    (env : ScheduleEnvironment) : TaskLife engine id entries (task.start env).1
  | terminate {entries : List ConfigEntry} {task : ScheduleTask}
    (life : TaskLife engine id entries task) : TaskLife engine id entries task.terminate
  | runTo {entries : List ConfigEntry} {task : ScheduleTask}
    (life : TaskLife engine id entries task)
    (clock : WallClock) (moment : Nat) : TaskLife engine id entries (task.runTo clock moment).1

/-- A task with its id that has what its entries say. -/
structure KeepsLastGood (engine : Engine) (id : String) (entries : List ConfigEntry)
    (task : ScheduleTask) : Prop where
  named : task.id = id
  configured : ScheduleConfig.ofEntry id task.entry = .ok task.config
  good : LastGood (fun entry => (ScheduleConfig.ofEntry id entry).toOption)
    (task.programWith engine) entries task.entry task.config task.program

namespace KeepsLastGood

variable {env : ScheduleEnvironment}

theorem create {entry : ConfigEntry} (made : create env id entry = .ok task) :
    KeepsLastGood env.engine id [entry] task := by
  obtain ⟨config, read, rfl⟩ := create_ok_iff.1 made
  rw [recompile_eq]
  refine ⟨rfl, read, ?_⟩
  simp only [ofConfig, Option.or_none]
  exact .made (toOption_eq_some.2 read)

/-- Nothing but the timer changes when a task is started, ended or moved on. -/
theorem of_timer (h : KeepsLastGood engine id entries task) (timer : Timer) (busyUntil : Nat) :
    KeepsLastGood engine id entries { task with timer, busyUntil } :=
  ⟨h.named, h.configured, h.good⟩

theorem start (h : KeepsLastGood engine id entries task) (env : ScheduleEnvironment) :
    KeepsLastGood engine id entries (task.start env).1 := by
  rw [start_eq]
  exact h.of_timer _ _

theorem update (h : KeepsLastGood engine id entries task) (same : env.engine = engine)
    (entry : ConfigEntry) :
    KeepsLastGood engine id (entries ++ [entry]) (task.update entry env).1 := by
  obtain ⟨rfl, configured, good⟩ := h
  cases read : ScheduleConfig.ofEntry task.id entry with
  | error problem =>
    rw [update_of_error read]
    exact ⟨rfl, configured, good.rejected (toOption_eq_none read)⟩
  | ok config =>
    have decoded := toOption_eq_some.2 read
    have given : KeepsLastGood engine task.id (entries ++ [entry])
        (task.given entry config env.engine) := by
      refine ⟨rfl, read, ?_⟩
      unfold ScheduleTask.given
      rw [same]
      by_cases recompiles : (ScheduleChanges.ofKeys (task.entry.changedKeys entry)).recompile
      · simp only [recompiles, if_true]
        exact good.recompiled decoded
      · simp only [recompiles, Bool.false_eq_true, if_false]
        rw [ScheduleChanges.recompile_ofKeys] at recompiles
        push Not at recompiles
        -- no key of the script changed since the entry that is kept, whatever became of that
        obtain ⟨namespaces, execute⟩ := ScheduleConfig.script_of_agrees configured read
          fun key mem => ConfigEntry.agreesOn_of_not_changed fun changed =>
            recompiles key changed mem
        exact good.unchanged decoded (programWith_congr rfl namespaces execute)
    rw [update_of_ok read]
    by_cases restart : (ScheduleChanges.ofKeys (task.entry.changedKeys entry)).restart
    · simp only [restart, if_true]
      exact given.start env
    · simp only [restart, Bool.false_eq_true, if_false]
      exact given

end KeepsLastGood

theorem TaskLife.lastGood (life : TaskLife engine id entries task) :
    KeepsLastGood engine id entries task := by
  induction life with
  | create same made =>
    subst same
    exact .create made
  | update life same entry ih => exact ih.update same entry
  | start life env ih => exact ih.start env
  | terminate life ih => exact ih.of_timer _ _
  | runTo life clock moment ih => exact ih.of_timer _ _

end ScheduleTask

/-! ## Both -/

/-- The configuration of a handler or a task is that of the last entry that can be read, and its
program is that of the last such configuration whose source compiles; there is none only if none
ever compiled. An entry that cannot be read changes nothing at all. -/
theorem units_keep_the_last_good :
    (∀ {k : Key .handler} {id : String} {entries : List ConfigEntry} {g : DispatchGraph},
      DispatchGraph.HandlerLife k id entries g → ∃ handler,
        g.handlers.get? k = some handler ∧ handler.id = id ∧
        HandlerConfig.ofEntry id handler.entry = .ok handler.config ∧
        LastGood (fun entry => (HandlerConfig.ofEntry id entry).toOption)
          (handler.programWith g.engine) entries handler.entry handler.config handler.program ∧
        ∀ entry problem, HandlerConfig.ofEntry id entry = .error problem →
          g.update k entry = (g, {})) ∧
    ∀ {engine : Engine} {id : String} {entries : List ConfigEntry} {task : ScheduleTask},
      ScheduleTask.TaskLife engine id entries task →
        task.id = id ∧ ScheduleConfig.ofEntry id task.entry = .ok task.config ∧
        LastGood (fun entry => (ScheduleConfig.ofEntry id entry).toOption)
          (task.programWith engine) entries task.entry task.config task.program ∧
        ∀ env entry problem, ScheduleConfig.ofEntry id entry = .error problem →
          task.update entry env = (task, env, {}) := by
  constructor
  · intro k id entries g life
    obtain ⟨handler, found, rfl, configured, good⟩ := life.lastGood
    exact ⟨handler, found, rfl, configured, good, fun entry problem bad =>
      DispatchGraph.update_of_error found bad⟩
  · intro engine id entries task life
    obtain ⟨rfl, configured, good⟩ := life.lastGood
    exact ⟨rfl, configured, good, fun env entry problem bad =>
      ScheduleTask.update_of_error bad⟩

/-- An entry with a script, for a handler or a task. -/
def scripted (text : String) : ConfigEntry :=
  .ofList [("handle", .string text), ("execute", .string text)]

/-- An entry of which no handler and no task can be made. -/
def unreadable : ConfigEntry := .ofList [("namespace", .boolean true)]

/-- The second of three entries cannot be read and the last does not compile. -/
theorem units_keep_the_last_good_bell :
    (∃ g handler, DispatchGraph.HandlerLife ⟨0⟩ "bell"
        [scripted "print *ding", unreadable, scripted "print"] g ∧
      g.handlers.get? ⟨0⟩ = some handler ∧
      (∀ problem, HandlerConfig.ofEntry "bell" unreadable = .error problem →
        g.update ⟨0⟩ unreadable = (g, {})) ∧
      handler.config.handle = "print" ∧ handler.program.map (·.unit.source) =
        some (assembleHandler (Handler.routineName "bell") "print *ding" "" "" [])) ∧
    ∃ task, ScheduleTask.TaskLife Engine.core "bell"
        [scripted "print *ding", unreadable, scripted "print"] task ∧
      ScheduleConfig.ofEntry "bell" task.entry = .ok task.config ∧
      task.config.execute = some "print" ∧ task.program.map (·.unit.source) =
        some (assembleRoutine mainRoutine "print *ding") := by
  constructor
  · have rings : ((({ engine := Engine.core } : DispatchGraph).create "bell"
        (scripted "print *ding")).toOption.any fun g =>
          (((g.update ⟨0⟩ unreadable).1.update ⟨0⟩ (scripted "print")).1.handlers.get? ⟨0⟩).any
            fun handler => handler.config.handle == "print" &&
              handler.program.map (·.unit.source) == some (assembleHandler
                (Handler.routineName "bell") "print *ding" "" "" [])) = true := by decide +kernel
    obtain ⟨g, made, rings⟩ := (Option.any_eq_true _ _).1 rings
    obtain ⟨handler, found, rings⟩ := (Option.any_eq_true _ _).1 rings
    simp only [Bool.and_eq_true, beq_iff_eq] at rings
    have first : DispatchGraph.HandlerLife ⟨0⟩ "bell" [scripted "print *ding"] g :=
      .create rfl (toOption_eq_some.1 made)
    have life := (first.update unreadable).update (scripted "print")
    obtain ⟨_, found', -, -, -, rejects⟩ := units_keep_the_last_good.1 life
    exact ⟨_, handler, life, found, rejects unreadable, rings⟩
  · let env : ScheduleEnvironment := { engine := .core, clock := .standing 0, dateFormat := "" }
    have rings : ((ScheduleTask.create env "bell" (scripted "print *ding")).toOption.any fun task =>
        let task := ((task.update unreadable env).1.update (scripted "print") env).1
        task.config.execute == some "print" &&
          task.program.map (·.unit.source) ==
            some (assembleRoutine mainRoutine "print *ding")) = true := by decide +kernel
    obtain ⟨task, made, rings⟩ := (Option.any_eq_true _ _).1 rings
    simp only [Bool.and_eq_true, beq_iff_eq] at rings
    have same : env.engine = .core := rfl
    have life := ((ScheduleTask.TaskLife.create same (toOption_eq_some.1 made)).update same
      unreadable).update same (scripted "print")
    exact ⟨_, life, (units_keep_the_last_good.2 life).2.1, rings⟩

end ScriptHost
