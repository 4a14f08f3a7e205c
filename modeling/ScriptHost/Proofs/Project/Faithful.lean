import ScriptHost.Proofs.Project.Holdings
import ScriptHost.Proofs.Project.Recruiting
import ScriptHost.Proofs.Schedule.Tasks
/-!
# Handlers and tasks follow their files

What is held of handlers and of tasks follows from the entries that they are given, and after a
load it is what the files define.

**Results.**
* `Handler.faithful`, `ScheduleTask.faithful`: both kinds are faithful.
* `Handler.load_held`, `ScheduleTask.load_held`: what is held after a load.
-/
namespace ScriptHost

open DispatchGraph

/-! ## Handlers -/

namespace Handler

variable {registry : Registry (Key .handler)} {g g' : DispatchGraph} {k : Key .handler}

def holding (registry : Registry (Key .handler)) (g : DispatchGraph) (id : String) :
    Option (Holding HandlerConfig) :=
  (registry.get? id).bind fun owned => (g.handlers.get? owned.entity).map fun handler =>
    ⟨Path.components owned.file, handler.entry, handler.config⟩

theorem holding_congr (same : g'.handlers = g.handlers) (id : String) :
    holding registry g' id = holding registry g id := by
  simp only [holding, same]

/-- A handler became another: under no other id anything else is held. -/
theorem holding_insert {handler : Handler} (tracks : Tracks registry g)
    (moves : Moves k (some handler) g g')
    (own : ∀ other, g.handlers.get? k = some other → other.id = handler.id) (file id : String) :
    holding (registry.insert handler.id ⟨file, k⟩) g' id =
      if id = handler.id then some ⟨Path.components file, handler.entry, handler.config⟩
      else holding registry g id := by
  rw [holding, Table.get?_insert]
  by_cases same : handler.id = id
  · rw [if_pos same, if_pos same.symm, Option.bind_some, moves.handlers, if_pos rfl]
    rfl
  · rw [if_neg same, if_neg (Ne.symm same), holding]
    cases found : registry.get? id with
    | none => rfl
    | some owned =>
      obtain ⟨other, there, rfl⟩ := tracks.entities found
      have notK : owned.entity ≠ k := fun isK => same (own other (isK ▸ there)).symm
      rw [Option.bind_some, Option.bind_some, moves.handlers, if_neg notK]

theorem holding_erase {id : String} {owned : Owned (Key .handler)} (tracks : Tracks registry g)
    (known : registry.get? id = some owned) (moves : Moves owned.entity none g g')
    (other : String) :
    holding (registry.erase id) g' other =
      if other = id then none else holding registry g other := by
  rw [holding, Table.get?_erase]
  by_cases same : id = other
  · rw [if_pos same, if_pos same.symm]
    rfl
  · rw [if_neg same, if_neg (Ne.symm same), holding]
    cases found : registry.get? other with
    | none => rfl
    | some owned' =>
      obtain ⟨handler, there, rfl⟩ := tracks.entities found
      obtain ⟨handler', there', rfl⟩ := tracks.entities known
      have apart : owned'.entity ≠ owned.entity := by
        intro isSame
        rw [isSame, there'] at there
        exact same (congrArg (·.id) (Option.some.inj there))
      rw [Option.bind_some, Option.bind_some, moves.handlers, if_neg apart]

theorem faithful : Registry.Faithful kind read? (InOrder False) holding where
  places {registry g} h id := by
    rw [holding]
    cases found : registry.get? id with
    | none => rfl
    | some owned =>
      obtain ⟨handler, there, -⟩ := h.entities found
      rw [Option.bind_some, there]
      rfl
  updated {registry g id owned} h known entry := by
    obtain ⟨handler, handler', rfl, incumbent⟩ := h.update known entry
    have settled := h.settled incumbent.found
    have holdings := holding_insert h.toTracks incumbent.toMoves incumbent.own owned.file
    rw [incumbent.sameId] at holdings
    refine ⟨incumbent.inOrder, fun other => (holdings other).trans ?_⟩
    refine if_congr Iff.rfl ?_ rfl
    have held : holding registry g handler.id =
        some ⟨Path.components owned.file, handler.entry, handler.config⟩ := by
      rw [holding, known, Option.bind_some, incumbent.found]
      rfl
    have configured := incumbent.settled.configured
    rw [incumbent.sameId, incumbent.entry] at configured
    rw [held, incumbent.entry, read?]
    cases read : HandlerConfig.ofEntry handler.id entry with
    | error problem =>
      rw [read] at configured
      have same := configured.symm.trans settled.configured
      simp only [Except.toOption, Option.elim_none, Except.ok.injEq] at same ⊢
      rw [same]
      rfl
    | ok config =>
      rw [read] at configured
      have same := configured.symm.trans read
      simp only [Except.toOption, Option.elim_some, Except.ok.injEq] at same ⊢
      rw [same]
      rfl
  retired {registry g id owned} h known := by
    obtain ⟨handler, found, -⟩ := h.entities known
    obtain ⟨evolves, linked, -⟩ := retire_evolves h.linked found
    exact ⟨h.erase known evolves.toMoves linked,
      holding_erase h.toTracks known evolves.toMoves⟩
  failed {registry g id entry g'} h made := by
    rcases create_cases made with ⟨-, rfl, problem, unread⟩ | ⟨-, some⟩
    · exact ⟨by rw [read?, unread]; rfl, h, fun _ => rfl⟩
    · cases some
  created {registry g id entry file k g'} h new made := by
    rcases create_cases made with ⟨none, -⟩ | ⟨created, isNext⟩
    · cases none
    cases isNext
    obtain ⟨handler, rfl, newcomer⟩ := h.create new created
    have framed := Framed.recompileEach (g'.boundOf g.handlers.nextKey) g'
    refine ⟨handler.config, by rw [read?, newcomer.read]; rfl,
      (newcomer.inOrder file).recompileEach _, fun other => ?_⟩
    have holdings := holding_insert h.toTracks newcomer.toMoves newcomer.own file other
    rw [newcomer.portrait.entry] at holdings
    exact (holding_congr framed.handlers other).trans holdings

/-- After a load of all handlers, what the files define is held. -/
theorem load_held {past : Prop} (inOrder : InOrder past registry g) (fresh : ∀ d, g.Fresh d)
    (documents : List (String × ConfigDocument)) (id : String) :
    let l := registry.load kind documents g
    holding l.registry l.surroundings id = Registry.heldBy read? documents id := by
  intro l
  have seen := load_views inOrder fresh (.refl g) documents id
  have held : holding l.registry l.surroundings id =
      (handlerView? l.registry l.surroundings id).map fun view =>
        ⟨Path.components view.file, view.entry, view.config⟩ := by
    unfold holding handlerView?
    cases l.registry.get? id with
    | none => rfl
    | some owned =>
      rw [Option.bind_some, Option.bind_some, Option.map_map]
      rfl
  rw [held, seen, Option.map_map]
  rfl

end Handler

/-! ## Tasks -/

namespace ScheduleTask

variable {registry : Registry ScheduleTask} {env : ScheduleEnvironment}

def read? (id : String) (entry : ConfigEntry) : Option ScheduleConfig :=
  (ScheduleConfig.ofEntry id entry).toOption

def holding (registry : Registry ScheduleTask) (id : String) : Option (Holding ScheduleConfig) :=
  (registry.get? id).map fun owned =>
    ⟨Path.components owned.file, owned.entity.entry, owned.entity.config⟩

theorem holding_insert (registry : Registry ScheduleTask) (file : String) (task : ScheduleTask)
    (id other : String) : holding (registry.insert id ⟨file, task⟩) other =
      if other = id then some ⟨Path.components file, task.entry, task.config⟩
      else holding registry other := by
  rw [holding, Table.get?_insert]
  by_cases same : id = other
  · rw [if_pos same, if_pos same.symm]
    rfl
  · rw [if_neg same, if_neg (Ne.symm same), holding]

theorem faithful : Registry.Faithful kind read? (fun r (env : ScheduleEnvironment) =>
    Tended env.dateFormat r) fun r _ => holding r where
  places {registry env} h id := by
    rw [holding, Option.map_map]
    rfl
  updated {registry env id owned} h known entry := by
    have continues := continues_update owned.entity entry env
    have settled := h _ _ known
    refine ⟨?_, fun other => (holding_insert ..).trans ?_⟩
    · exact continues.dateFormat ▸ h.insert (update_settled settled)
    · refine if_congr Iff.rfl ?_ rfl
      rw [holding, known, Option.map_some, Option.map_some, read?]
      change some (⟨_, (owned.entity.update entry env).1.entry,
        (owned.entity.update entry env).1.config⟩ : Holding ScheduleConfig) = _
      rcases owned.entity.update_cases entry env with
        ⟨problem, unread, eq⟩ | ⟨config, read, -, program, timer, eq, -⟩
      · rw [settled.named] at unread
        rw [eq, unread]
        rfl
      · rw [settled.named] at read
        rw [eq, read]
        rfl
  retired {registry env id owned} h known := by
    refine ⟨h.erase, fun other => ?_⟩
    rw [holding, Table.get?_erase]
    by_cases same : id = other
    · rw [if_pos same, if_pos same.symm]
      rfl
    · rw [if_neg same, if_neg (Ne.symm same), holding]
  failed {registry env id entry env'} h made := by
    obtain ⟨rfl, nothing⟩ := create_cases made
    refine ⟨?_, h, fun _ => rfl⟩
    cases read : ScheduleConfig.ofEntry id entry with
    | error problem => rw [read?, read]; rfl
    | ok config =>
      have created : create env' id entry = .ok _ := create_ok_iff.2 ⟨config, read, rfl⟩
      rcases nothing with - | ⟨_, some, -⟩
      · simp [kind, created] at made
      · cases some
  created {registry env id entry file task env'} h new made := by
    obtain ⟨rfl, ⟨⟨⟩⟩ | ⟨_, ⟨⟩, created⟩⟩ := create_cases made
    obtain ⟨-, settled, continues, -⟩ := created_cases made
    obtain ⟨config, read, is⟩ := create_ok_iff.1 created
    obtain ⟨timer, started⟩ := task.startIfActive_fst env'
    refine ⟨config, by rw [read?, read]; rfl, ?_, fun other => (holding_insert ..).trans ?_⟩
    · rw [continues.dateFormat]
      exact h.insert settled
    · refine if_congr Iff.rfl ?_ rfl
      change some (⟨_, (task.startIfActive env').1.entry, (task.startIfActive env').1.config⟩ :
        Holding ScheduleConfig) = _
      rw [started, is, recompile_eq]
      rfl

theorem holding_map (registry : Registry ScheduleTask) {f : ScheduleTask → ScheduleTask}
    (same : ∀ task, ∃ timer busyUntil, f task = { task with timer, busyUntil }) (id : String) :
    holding (registry.map fun _ owned => ⟨owned.file, f owned.entity⟩) id =
      holding registry id := by
  rw [holding, holding, Table.get?_map, Option.map_map]
  refine congrArg (Option.map · (registry.get? id)) (funext fun owned => ?_)
  obtain ⟨timer, busyUntil, eq⟩ := same owned.entity
  simp only [Function.comp_apply, eq]

/-- What holds while tasks are made: those that are there are those of the definitions that were
accepted so far. -/
structure Enlisting (done : List (Definition × ScheduleConfig)) (registry : Registry ScheduleTask)
    (env : ScheduleEnvironment) : Prop where
  tended : Tended env.dateFormat registry
  held : ∀ id, holding registry id = (done.find? (·.1.id == id)).map fun x =>
    ⟨Path.components x.1.file, x.1.entry, x.2⟩

namespace Enlisting

variable {done : List (Definition × ScheduleConfig)} {id file : String} {entry : ConfigEntry}
  {env' : ScheduleEnvironment}

theorem known (h : Enlisting done registry env) (id : String) :
    registry.contains id = Registry.isTaken done id := by
  have seen := congrArg Option.isSome (h.held id)
  rwa [holding, Option.isSome_map, Option.isSome_map, ← Registry.isTaken_eq] at seen

theorem failed (h : Enlisting done registry env) (made : kind.create id entry env = (none, env')) :
    read? id entry = none ∧ Enlisting done registry env' := by
  obtain ⟨unread, tended, -⟩ := faithful.failed h.tended made
  exact ⟨unread, tended, h.held⟩

theorem created {task : ScheduleTask} (h : Enlisting done registry env)
    (new : registry.contains id = false) (made : kind.create id entry env = (some task, env')) :
    ∃ config, read? id entry = some config ∧
      Enlisting (done ++ [(⟨file, id, entry⟩, config)]) (registry.insert id ⟨file, task⟩) env' := by
  have unknown := new
  obtain ⟨rfl, ⟨⟨⟩⟩ | ⟨_, ⟨⟩, created⟩⟩ := create_cases made
  obtain ⟨settled, entryIs, -⟩ := create_settled created
  have read := settled.decoded
  rw [entryIs] at read
  refine ⟨task.config, by rw [read?, read]; rfl, h.tended.insert settled, fun other => ?_⟩
  rw [h.known, Registry.isTaken_eq, Option.isSome_eq_false_iff,
    Option.isNone_iff_eq_none] at unknown
  rw [holding_insert, List.find?_append, entryIs]
  by_cases same : other = id
  · subst same
    rw [if_pos rfl, unknown]
    simp
  · rw [if_neg same, h.held]
    simp [Ne.symm same]

end Enlisting

/-- The tasks that documents make are those of the definitions that are accepted. -/
theorem fromFiles_held (env : ScheduleEnvironment) (documents : List (String × ConfigDocument))
    (id : String) : holding (fromFiles env documents) id = Registry.heldBy read? documents id := by
  have nobody : Enlisting [] .empty env := ⟨fun _ _ => nofun, fun _ => rfl⟩
  have all := Registry.loadFiles_follows (I := Enlisting) Enlisting.known Enlisting.failed
    Enlisting.created documents (l := ⟨.empty, env, {}⟩) nobody
  rw [Registry.heldBy, ← Registry.find?_accepted]
  exact all.held id

theorem load_held (registry : Registry ScheduleTask) (env : ScheduleEnvironment)
    (documents : List (String × ConfigDocument)) (id : String) :
    holding (registry.load kind documents env).registry id =
      Registry.heldBy read? documents id := by
  rw [← fromFiles_held env]
  cases active : env.active with
  | false => rw [(load_stopped active registry documents).1]
  | true =>
    rw [(load_running active registry documents).1]
    exact holding_map _ (fun task => task.started_fst ..) id

end ScheduleTask
end ScriptHost
