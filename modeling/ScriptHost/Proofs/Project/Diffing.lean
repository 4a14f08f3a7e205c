import ScriptHost.Proofs.Config.Unchanged
import ScriptHost.Proofs.Dispatch.Pairing
import ScriptHost.Proofs.Project.Converging
import ScriptHost.Proofs.Project.Fates
/-!
# Taking over a file is its difference

When a file is taken over, the handlers or schedules that it defined and defines still are the ones
that they were, with their new entries; those that it does not define any more are gone; and what it
defines anew is made. A handler or a schedule whose entry did not change is not compiled, bound or
started again, and those of other files stay what they are in all respects.

**Results.**
* `Handler.mannered`, `ScheduleTask.mannered`: what entries make of handlers and of tasks.
* `sync_applies_the_difference`: what taking over a file does to a project, and that it does nothing
  when it is done again at once.
-/
namespace ScriptHost

open DispatchGraph Registry

/-! ## Handlers -/

/-- Keys that are in use were dealt out. -/
theorem Store.number_lt {kind : KeyKind} {α : Type} {s : Store kind α} {key : Key kind} {value : α}
    (found : s.get? key = some value) : key.number < s.next := by
  by_contra above
  have absent : s.get? key = none :=
    Store.find?_eq_none fun e mem => Nat.lt_of_lt_of_le (s.below e mem) (Nat.not_lt.1 above)
  cases absent.symm.trans found

namespace DispatchGraph

variable {g g' : DispatchGraph} {k : Key .handler} {handler : Handler} {entry : ConfigEntry}
  {config : HandlerConfig}

/-- An entry without a changed key is given to the handler, and nothing follows. -/
theorem update_unchanged (found : g.handlers.get? k = some handler)
    (read : HandlerConfig.ofEntry handler.id entry = .ok config)
    (unchanged : handler.entry.changedKeys entry = []) :
    g.update k entry = ({ g with handlers := g.handlers.modify k fun handler =>
      { handler with entry, config } }, {}) := by
  simp only [update, found, read, unchanged, HandlerChanges.ofKeys, List.foldl_nil]
  rfl

/-! ### Keys -/

theorem next_rebind (g : DispatchGraph) (k : Key .handler) (reorder : Bool) :
    (g.rebind k reorder).handlers.next = g.handlers.next := by
  unfold rebind
  split
  · rfl
  · rename_i handler _
    have same : (joinNamed k reorder (leaveUnnamed k handler.config.bind reorder g handler.bound).1
        (leaveUnnamed k handler.config.bind reorder g handler.bound).2
        handler.config.bind).1.handlers =
        g.handlers := (Framed.joinNamed ..).handlers.trans (Framed.leaveUnnamed ..).handlers
    refine Eq.trans ?_ (congrArg Store.next same)
    rfl

theorem next_unbindAll (g : DispatchGraph) (k : Key .handler) :
    (g.unbindAll k).handlers.next = g.handlers.next := by
  unfold unbindAll
  split
  · rfl
  · rename_i handler _
    have left : (handler.bound.foldl (leave k) (g.setBound k [])).handlers =
        (g.setBound k []).handlers := (Framed.leaveEach ..).handlers
    rw [left]
    rfl

theorem next_recompileHandler (g : DispatchGraph) (k : Key .handler) :
    (g.recompileHandler k).1.handlers.next = g.handlers.next := by
  unfold recompileHandler
  repeat' split
  all_goals rfl

theorem next_update (g : DispatchGraph) (k : Key .handler) (entry : ConfigEntry) :
    (g.update k entry).1.handlers.next = g.handlers.next :=
  update_keeps (I := fun g' => g'.handlers.next = g.handlers.next) rfl (fun _ _ => rfl)
    (fun same => (next_recompileHandler ..).trans same)
    (fun same _ => (next_rebind ..).trans same)
    fun same keys => (congrArg Store.next (Framed.recompileEach keys _).handlers).trans same

theorem next_create {id : String} (made : g.create id entry = .ok g') :
    g'.handlers.next = g.handlers.next + 1 := by
  simp only [create, bind_eq_ok, pure_eq_ok] at made
  obtain ⟨config, -, rfl⟩ := made
  rw [next_rebind, next_recompileHandler]
  rfl

end DispatchGraph

namespace Handler

variable {registry : Registry (Key .handler)} {g g' : DispatchGraph} {k : Key .handler}

/-- A handler as it looks: its key, and all that it has. -/
def look (g : DispatchGraph) (k : Key .handler) : Option (Key .handler × Handler) :=
  (g.handlers.get? k).map fun handler => (k, handler)

/-- What an entry makes of a handler: nothing if it cannot be read; else the entry and its
configuration are the handler's. If it is the entry that the handler had, all else is as it was. -/
inductive Given (entry : ConfigEntry) (handler : Handler) : Handler → Prop where
  | rejected (unread : read? handler.id entry = none) : Given entry handler handler
  | accepted {config : HandlerConfig} {bound : List (Key .dispatcher)} {program : Option Program}
    (read : read? handler.id entry = some config)
    (unchanged : handler.entry.same entry →
      config = handler.config ∧ bound = handler.bound ∧ program = handler.program) :
    Given entry handler { handler with entry, config, bound, program }

/-- What handlers make of entries, if the keys from this number on are new. -/
def manner (next : Nat) : Manner (Key .handler × Handler) HandlerConfig where
  read := read?
  entry x := x.2.entry
  Given id entry x x' := x.2.id = id ∧ x'.1 = x.1 ∧ Given entry x.2 x'.2
  Made id entry config x :=
    next ≤ x.1.number ∧ x.2.id = id ∧ x.2.entry = entry ∧ x.2.config = config

theorem look_of_found {handler : Handler} (found : g.handlers.get? k = some handler) :
    look g k = some (k, handler) := by
  rw [look, found, Option.map_some]

theorem stand_congr (same : g'.handlers = g.handlers) (id : String) :
    stand look registry g' id = stand look registry g id := by
  simp only [stand, look, same]

/-- When a handler moves, nothing else is seen under other ids. -/
theorem stand_elsewhere {after : Option Handler} {registry' : Registry (Key .handler)}
    {id other : String} (tracks : Tracks registry g) (moves : Moves k after g g')
    (own : ∀ handler, g.handlers.get? k = some handler → handler.id = id) (differs : other ≠ id)
    (same : registry'.get? other = registry.get? other) :
    stand look registry' g' other = stand look registry g other := by
  rw [stand, stand, same]
  cases found : registry.get? other with
  | none => rfl
  | some owned =>
    obtain ⟨handler, there, rfl⟩ := tracks.entities found
    have notK : owned.entity ≠ k := fun isK => differs (own handler (isK ▸ there))
    rw [Option.bind_some, Option.bind_some, look, look, moves.handlers, if_neg notK]

theorem given_update {handler : Handler} (entry : ConfigEntry)
    (found : g.handlers.get? k = some handler) (settled : g.Settled handler) :
    ∃ handler', (g.update k entry).1.handlers.get? k = some handler' ∧
      Given entry handler handler' := by
  cases read : HandlerConfig.ofEntry handler.id entry with
  | error problem =>
    refine ⟨handler, by rw [update_of_error found read, found], .rejected ?_⟩
    rw [read?, read]
    rfl
  | ok config =>
    obtain ⟨middle, touched, follows⟩ := update_follows found read
    obtain ⟨bound, found'⟩ := (follows k).handler _ ((touched.handlers k).trans (if_pos rfl))
    refine ⟨_, found', .accepted (by rw [read?, read]; rfl) fun same => ?_⟩
    have unchanged := ConfigEntry.changedKeys_of_same same
    rw [update_unchanged found read unchanged, Store.get?_modify, if_pos rfl, found] at found'
    injection found' with eq
    injection eq with _ _ _ bound program
    exact ⟨HandlerConfig.ofEntry_of_unchanged unchanged settled.configured read, bound.symm,
      program.symm⟩

/-- To be given an entry that cannot be read, or that it has, does nothing to a handler. -/
theorem update_eq_self {handler : Handler} {entry : ConfigEntry}
    (found : g.handlers.get? k = some handler) (settled : g.Settled handler)
    (taken : read? handler.id entry = none ∨ handler.entry = entry) (same : entry.same entry) :
    (g.update k entry).1 = g := by
  rcases taken with unread | rfl
  · cases read : HandlerConfig.ofEntry handler.id entry with
    | error problem => rw [update_of_error found read]
    | ok config =>
      rw [read?, read] at unread
      cases unread
  · rw [update_unchanged found settled.configured (ConfigEntry.changedKeys_of_same same)]
    have unmoved : g.handlers.modify k (fun other =>
        { other with entry := handler.entry, config := handler.config }) = g.handlers := by
      refine Store.modify_eq_self fun other there => ?_
      cases found.symm.trans there
      rfl
    rw [unmoved]

theorem mannered (next : Nat) : Mannered kind (manner next)
    (fun registry g => InOrder False registry g ∧ next ≤ g.handlers.next) look where
  looks {registry g id owned} h known := by
    obtain ⟨handler, found, -⟩ := h.1.entities known
    exact ⟨_, look_of_found found⟩
  updated {registry g id owned x} h known seen entry := by
    obtain ⟨inOrder, above⟩ := h
    obtain ⟨handler, handler', rfl, incumbent⟩ := inOrder.update known entry
    cases (look_of_found incumbent.found).symm.trans seen
    obtain ⟨handler'', found', given⟩ :=
      given_update entry incumbent.found (inOrder.settled incumbent.found)
    refine ⟨⟨incumbent.inOrder, above.trans (next_update ..).ge⟩,
      ⟨_, look_of_found found', rfl, rfl, given⟩, fun other differs => ?_⟩
    exact stand_elsewhere inOrder.toTracks incumbent.toMoves
      (incumbent.sameId ▸ incumbent.own) differs (by rw [Table.get?_insert, if_neg differs.symm])
  retired {registry g id owned} h known := by
    obtain ⟨inOrder, above⟩ := h
    obtain ⟨handler, found, rfl⟩ := inOrder.entities known
    obtain ⟨evolves, linked, -⟩ := retire_evolves inOrder.linked found
    refine ⟨⟨inOrder.erase known evolves.toMoves linked, above.trans (next_unbindAll ..).ge⟩,
      fun other differs => ?_⟩
    refine stand_elsewhere inOrder.toTracks evolves.toMoves (fun other found' => ?_) differs
      (by rw [Table.get?_erase, if_neg differs.symm])
    cases found.symm.trans found'
    rfl
  failed {g id entry g'} made := by
    rcases create_cases made with ⟨-, rfl, problem, unread⟩ | ⟨-, some⟩
    · have nothing : read? id entry = none := by rw [read?, unread]; rfl
      exact ⟨nothing, rfl⟩
    · cases some
  created {registry g id entry k g'} h new made file := by
    obtain ⟨inOrder, above⟩ := h
    rcases create_cases made with ⟨none, -⟩ | ⟨created, isNext⟩
    · cases none
    cases isNext
    obtain ⟨handler, rfl, newcomer⟩ := inOrder.create new created
    have framed := Framed.recompileEach (g'.boundOf g.handlers.nextKey) g'
    have found : (g'.recompileBound g.handlers.nextKey).handlers.get? g.handlers.nextKey =
        some handler := by
      rw [recompileBound, framed.handlers, newcomer.found]
    have config : read? handler.id entry = some handler.config := by
      rw [read?, newcomer.read]
      rfl
    refine ⟨⟨(newcomer.inOrder file).recompileEach _, ?_⟩,
      ⟨_, handler.config, look_of_found found, config, above, rfl, newcomer.portrait.entry, rfl⟩,
      fun other differs => ?_⟩
    · have next : (g'.recompileBound g.handlers.nextKey).handlers.next = g.handlers.next + 1 := by
        rw [recompileBound, framed.handlers, next_create created]
      exact above.trans (by simp only [kind, next]; omega)
    · refine (stand_congr framed.handlers other).trans ?_
      exact stand_elsewhere inOrder.toTracks newcomer.toMoves newcomer.own differs
        (by rw [Table.get?_insert, if_neg differs.symm])
  taken {id entry x x'} given := by
    obtain ⟨k, handler⟩ := x
    obtain ⟨k', handler'⟩ := x'
    obtain ⟨rfl, -, unread | ⟨read, -⟩⟩ := given
    · exact .inl unread
    · exact .inr rfl
  has made := made.2.2.1
  settled {registry g id owned x entry} h known seen taken same := by
    obtain ⟨handler, found, rfl⟩ := h.1.entities known
    cases (look_of_found found).symm.trans seen
    exact congrArg (Prod.mk owned.entity)
      (update_eq_self found (h.1.settled found) taken same)

/-- A handler whose id is free afterwards is gone, and no dispatcher has it. -/
theorem gone_of_forgotten (inOrder : InOrder False registry g) (file : String)
    (document : ConfigDocument) {id : String} {owned : Owned (Key .handler)}
    (known : registry.get? id = some owned) :
    let y := registry.sync kind file document g
    y.registry.get? id = none → y.surroundings.handlers.get? owned.entity = none ∧
      ∀ d, owned.entity ∉ y.surroundings.membersOf d := by
  intro y forgotten
  obtain ⟨⟨inOrder', -⟩, fates⟩ := (mannered g.handlers.next).sync_fates file document
    ⟨inOrder, Nat.le_refl _⟩
  obtain ⟨handler, found, rfl⟩ := inOrder.entities known
  -- nothing that is known afterwards has this key under this or another id
  have gone : y.surroundings.handlers.get? owned.entity = none := by
    rw [Option.eq_none_iff_forall_ne_some]
    intro handler' found'
    obtain ⟨owned', known', sameKey⟩ := inOrder'.owned found'
    have seen' : look y.surroundings owned'.entity = some (owned.entity, handler') := by
      rw [sameKey]
      exact look_of_found found'
    have elsewhere {own : String} {other : Handler}
        (stood : stand look registry g handler'.id = some (own, (owned.entity, other))) :
        False := by
      obtain ⟨before, was, -, seen⟩ := known_of_stand stood
      obtain ⟨first, there, sameId⟩ := inOrder.entities was
      rw [look_of_found there, Option.some.injEq, Prod.mk.injEq] at seen
      rw [seen.1] at there
      cases found.symm.trans there
      rw [sameId] at forgotten
      cases forgotten.symm.trans known'
    have fate := fates handler'.id
    rw [stand_of_known known' seen'] at fate
    generalize stood : stand look registry g handler'.id = before at fate
    cases fate with
    | @kept own x _ entry _ _ given =>
      obtain ⟨k, other⟩ := x
      obtain ⟨-, isK, -⟩ := given
      simp only at isK
      subst isK
      exact elsewhere stood
    | foreign _ => exact elsewhere stood
    | made _ _ made => exact absurd (Store.number_lt found) (Nat.not_lt.2 made.1)
  refine ⟨gone, fun d mem => ?_⟩
  obtain ⟨handler', found', -⟩ := inOrder'.linked.mem_iff.1 mem
  cases gone.symm.trans found'

end Handler

/-! ## Tasks -/

namespace ScheduleTask

variable {registry : Registry ScheduleTask} {env : ScheduleEnvironment} {task : ScheduleTask}
  {entry : ConfigEntry}

/-- A task looks like what it is. -/
def look (_ : ScheduleEnvironment) (task : ScheduleTask) : Option ScheduleTask := some task

/-- What an entry makes of a task: nothing if it cannot be read; else the entry, its configuration
and its times are the task's. If it is the entry that the task had, all else is as it was. -/
inductive Given (entry : ConfigEntry) (task : ScheduleTask) : ScheduleTask → Prop where
  | rejected (unread : read? task.id entry = none) : Given entry task task
  | accepted {config : ScheduleConfig} {program : Option Program} {timer : Timer}
    (read : read? task.id entry = some config)
    (unchanged : task.entry.same entry → config = task.config ∧
      config.resolve task.dateFormat = task.resolved ∧ program = task.program ∧
      timer = task.timer) :
    Given entry task
      { task with entry, config, resolved := config.resolve task.dateFormat, program, timer }

def manner : Manner ScheduleTask ScheduleConfig where
  read := read?
  entry task := task.entry
  Given id entry task task' := task.id = id ∧ Given entry task task'
  Made id entry config task := task.id = id ∧ task.entry = entry ∧ task.config = config

theorem update_unchanged {config : ScheduleConfig}
    (read : ScheduleConfig.ofEntry task.id entry = .ok config)
    (unchanged : task.entry.changedKeys entry = []) :
    task.update entry env = ({ task with
      entry, config, resolved := config.resolve task.dateFormat }, env, {}) := by
  simp only [update, read, unchanged, ScheduleChanges.ofKeys, List.foldl_nil]
  rfl

theorem given_update {dateFormat id : String} (settled : Settled dateFormat id task)
    (env : ScheduleEnvironment) (entry : ConfigEntry) :
    Given entry task (task.update entry env).1 := by
  rcases task.update_cases entry env with
    ⟨problem, unread, eq⟩ | ⟨config, read, -, program, timer, eq, -⟩
  · rw [eq]
    exact .rejected (by rw [read?, unread]; rfl)
  · rw [eq]
    refine .accepted (by rw [read?, read]; rfl) fun same => ?_
    have unchanged := ConfigEntry.changedKeys_of_same same
    have decoded := settled.decoded
    rw [← settled.named] at decoded
    have sameConfig := ScheduleConfig.ofEntry_of_unchanged unchanged decoded read
    rw [update_unchanged read unchanged] at eq
    injection eq with _ _ _ _ _ program timer
    exact ⟨sameConfig, by rw [sameConfig, settled.timed, settled.pattern], program.symm, timer.symm⟩

theorem update_eq_self {dateFormat id : String} (settled : Settled dateFormat id task)
    (taken : read? task.id entry = none ∨ task.entry = entry) (same : entry.same entry) :
    task.update entry env = (task, env, {}) := by
  rcases taken with unread | rfl
  · cases read : ScheduleConfig.ofEntry task.id entry with
    | error problem => rw [update_of_error read]
    | ok config =>
      rw [read?, read] at unread
      cases unread
  · have decoded := settled.decoded
    rw [← settled.named] at decoded
    have timed := settled.timed
    rw [← settled.pattern] at timed
    rw [update_unchanged decoded (ConfigEntry.changedKeys_of_same same), ← timed]

theorem stand_elsewhere {registry' : Registry ScheduleTask} {env' : ScheduleEnvironment}
    {other : String} (same : registry'.get? other = registry.get? other) :
    stand look registry' env' other = stand look registry env other := by
  rw [stand, stand, same]
  rfl

theorem mannered : Mannered kind manner (fun r (env : ScheduleEnvironment) =>
    Tended env.dateFormat r) look where
  looks {registry env id owned} h known := ⟨owned.entity, rfl⟩
  updated {registry env id owned x} h known seen entry := by
    cases seen
    have continues := continues_update owned.entity entry env
    have settled := h _ _ known
    refine ⟨continues.dateFormat ▸ h.insert (update_settled settled),
      ⟨_, rfl, settled.named, given_update settled env entry⟩, fun other differs => ?_⟩
    exact stand_elsewhere (by rw [Table.get?_insert, if_neg differs.symm])
  retired {registry env id owned} h known :=
    ⟨h.erase, fun other differs => stand_elsewhere (by rw [Table.get?_erase, if_neg differs.symm])⟩
  failed {env id entry env'} made := by
    have nobody : Tended env.dateFormat .empty := fun _ _ found => by cases found
    exact ⟨(faithful.failed nobody made).1, (create_cases made).1⟩
  created {registry env id entry task env'} h new made file := by
    obtain ⟨rfl, ⟨⟨⟩⟩ | ⟨_, ⟨⟩, created⟩⟩ := create_cases made
    obtain ⟨-, settled, continues, -⟩ := created_cases made
    obtain ⟨config, read, is⟩ := create_ok_iff.1 created
    obtain ⟨timer, started⟩ := task.startIfActive_fst env'
    have look : (kind.activate task env').1 = _ := started
    have config : read? id entry = some config := by rw [read?, read]; rfl
    refine ⟨?_, ⟨_, _, rfl, config, ?_⟩, fun other differs => ?_⟩
    · rw [continues.dateFormat]
      exact h.insert settled
    · rw [look, is, recompile_eq]
      exact ⟨rfl, rfl, rfl⟩
    · exact stand_elsewhere (by rw [Table.get?_insert, if_neg differs.symm])
  taken {id entry task task'} given := by
    obtain ⟨rfl, unread | ⟨read, -⟩⟩ := given
    · exact .inl unread
    · exact .inr rfl
  has made := made.2.1
  settled {registry env id owned x entry} h known seen taken same := by
    cases seen
    have settled := h _ _ known
    have taken : read? owned.entity.id entry = none ∨ owned.entity.entry = entry := by
      rw [settled.named]
      exact taken
    have rests : owned.entity.update entry env = _ := update_eq_self settled taken same
    simp only [kind, rests]

end ScheduleTask

/-! ## Projects -/

namespace Project

namespace Part

/-- An entity of the part, as it looks. -/
def Entity : Part → Type
  | handlers => Key .handler × Handler
  | schedules => ScheduleTask

def standing : (part : Part) → Project → String → Option (String × part.Entity)
  | handlers, project => stand Handler.look project.handlers project.graph
  | schedules, project => stand ScheduleTask.look project.board.tasks project.board.env

/-- What entities of the part make of entries, from now on. -/
def manner : (part : Part) → Project → Manner part.Entity part.Config
  | handlers, project => Handler.manner project.graph.handlers.next
  | schedules, _ => ScheduleTask.manner

def idsOf : Part → Project → String → List String
  | handlers, project, file => (project.handlers.ownedBy file).map (·.1)
  | schedules, project, file => (project.board.tasks.ownedBy file).map (·.1)

/-- An entry has nothing to say to an entity that looks so: it is not compiled, bound or started
again. -/
def Idle : (part : Part) → part.Entity → ConfigEntry → Prop
  | handlers, x, entry => ∀ g : DispatchGraph, g.handlers.get? x.1 = some x.2 →
    ∃ handlers, g.update x.1 entry = ({ g with handlers }, {})
  | schedules, task, entry => ∀ env, ∃ after, task.update entry env = (after, env, {})

def syncFile : Part → Project → String → Disk (Project × SyncReport)
  | handlers, project, path => project.syncHandlers path
  | schedules, project, path => project.syncSchedules path

end Part

variable {root : String} {engine : Engine} {clock : WallClock} {project : Project}

theorem idle_of_same {part : Part} {x : part.Entity} {entry : ConfigEntry}
    (same : ((part.manner project).entry x).same entry) : part.Idle x entry := by
  cases part with
  | handlers =>
    intro g found
    obtain ⟨k, handler⟩ := x
    cases read : HandlerConfig.ofEntry handler.id entry with
    | error problem => exact ⟨g.handlers, update_of_error found read⟩
    | ok config => exact ⟨_, update_unchanged found read (ConfigEntry.changedKeys_of_same same)⟩
  | schedules =>
    intro env
    cases read : ScheduleConfig.ofEntry x.id entry with
    | error problem => exact ⟨x, ScheduleTask.update_of_error read⟩
    | ok config =>
      exact ⟨_, ScheduleTask.update_unchanged read (ConfigEntry.changedKeys_of_same same)⟩

/-- What taking over the contents of a file does. -/
theorem update_differs (lasting : Lasting root engine clock project) (part : Part) (file : String)
    {document : ConfigDocument}
    (same : ∀ id entry, definition? document id = some entry → entry.same entry) :
    let r := part.update project file document
    (∀ id, Fate (part.manner project) file document id (part.standing project id)
      (part.standing r.1 id)) ∧
    (∀ id, id ∈ part.idsOf r.1 file ↔ ∃ entry, definition? document id = some entry ∧
      (id ∈ part.idsOf project file ∨
        part.standing project id = none ∧ (part.read? id entry).isSome)) ∧
    r.2.updated + r.2.removed = (part.idsOf project file).length ∧
    ∃ again, part.update r.1 file document = (r.1, again) ∧
      again.created = 0 ∧ again.removed = 0 := by
  obtain ⟨graphs, steady⟩ := lasting.steady
  cases part with
  | handlers =>
    have mannered := Handler.mannered project.graph.handlers.next
    have holds := And.intro steady.inOrder (Nat.le_refl project.graph.handlers.next)
    obtain ⟨-, -, all⟩ := sync_counts Handler.kind file document project.handlers project.graph
    obtain ⟨again, eq, created, removed⟩ := mannered.sync_again file holds same
    refine ⟨(mannered.sync_fates file document holds).2, mannered.sync_ids holds file document,
      all.trans (List.length_map _).symm, again, ?_, created, removed⟩
    simp only [Part.update, updateHandlers, eq]
  | schedules =>
    have tended := lasting.orderly.tended
    obtain ⟨-, -, all⟩ :=
      sync_counts ScheduleTask.kind file document project.board.tasks project.board.env
    obtain ⟨again, eq, created, removed⟩ := ScheduleTask.mannered.sync_again file tended same
    refine ⟨(ScheduleTask.mannered.sync_fates file document tended).2,
      ScheduleTask.mannered.sync_ids tended file document,
      all.trans (List.length_map _).symm, again, ?_, created, removed⟩
    simp only [Part.update, updateSchedules, eq]

theorem run_syncFile (part : Part) (project : Project) {path : String} {disk : FileTree}
    {content : Option ConfigDocument}
    (read : Disk.documentOf? (disk.find (disk.normalize path)) = some content) :
    (part.syncFile project path).run.run disk =
      (.ok (part.update project (disk.normalize path) (content.getD .empty)), disk) := by
  obtain ⟨made, eq, is⟩ := Disk.gives_readConfig path disk
  rw [read, Option.map_some] at is
  obtain rfl := toOption_eq_some.1 is
  cases part with
  | handlers => exact Disk.run_bind_ok eq
  | schedules => exact Disk.run_bind_ok eq

/-- A file is taken over that can be read or is gone. What becomes of each id is told by `Fate`: an
id of the file that is defined still is the one that it was, given its new entry, one that is not is
gone, one that is new is made if it can be read and no other file has it, and all that other files
have stays what it is. The report counts all ids that the file had. An entry that is what it was has
nothing to say; and to take over the file at once again changes nothing. -/
theorem sync_applies_the_difference {extend : Bool} {disk₀ disk : FileTree} {project₀ : Project}
    (loaded : (load root engine extend clock).outcome? disk₀ = some project₀) (events : List Event)
    (part : Part) (path : String) {content : Option ConfigDocument}
    (read : Disk.documentOf? (disk.find (disk.normalize path)) = some content)
    (comparable : ∀ document, content = some document →
      Toml.Value.comparableEntries document.entries) :
    let project := project₀.session events
    let file := disk.normalize path
    let document := content.getD .empty
    ∃ after report again,
      (part.syncFile project path).run.run disk = (.ok (after, report), disk) ∧
      (∀ id, Fate (part.manner project) file document id (part.standing project id)
        (part.standing after id)) ∧
      (∀ id, id ∈ part.idsOf after file ↔ ∃ entry, definition? document id = some entry ∧
        (id ∈ part.idsOf project file ∨
          part.standing project id = none ∧ (part.read? id entry).isSome)) ∧
      (∀ id owned, project.handlers.get? id = some owned → after.handlers.get? id = none →
        after.graph.handlers.get? owned.entity = none ∧
          ∀ d, owned.entity ∉ after.graph.membersOf d) ∧
      (∀ id own x entry, part.standing project id = some (own, x) →
        definition? document id = some entry → ((part.manner project).entry x).same entry →
        part.Idle x entry) ∧
      report.updated + report.removed = (part.idsOf project file).length ∧
      (part.syncFile after path).run.run disk = (.ok (after, again), disk) ∧
      again.created = 0 ∧ again.removed = 0 := by
  intro project file document
  have lasting : Lasting root _ clock project := (Lasting.load loaded).session events
  have same : ∀ id entry, definition? document id = some entry → entry.same entry := by
    intro id entry defined
    refine Registry.same_definition ?_ defined
    cases content with
    | none => rfl
    | some document => exact comparable document rfl
  obtain ⟨fates, ids, counts, again, eq, created, removed⟩ := update_differs lasting part file same
  refine ⟨(part.update project file document).1, (part.update project file document).2, again,
    run_syncFile part project read, fates, ids, fun id owned known forgotten => ?_,
    fun id own x entry _ _ same => idle_of_same same, counts, ?_, created, removed⟩
  · obtain ⟨graphs, steady⟩ := lasting.steady
    cases part with
    | handlers => exact Handler.gone_of_forgotten steady.inOrder file document known forgotten
    | schedules => cases forgotten.symm.trans known
  · exact (run_syncFile part _ read).trans (by rw [eq])

def roster (lines : List String) : FileTree := .directory [("p", .directory [
  ("handlers", .directory [("a.toml", textFile lines)]), ("schedules", .directory [])])]

/-- One handler stays as it was, one gets another entry, one goes and one comes. -/
theorem sync_applies_the_difference_roster :
    ∃ project after again, (load "/p" StandardActions.engine false (.standing 0)).outcome?
        (roster ["[day]", "[night]", "[spare]"]) = some project ∧
      let disk := roster ["[day]", "[late]", "[night]", "priority = 1"]
      (Part.syncFile .handlers project "/p/handlers/a.toml").run.run disk =
        (.ok (after, ⟨2, 1, 1, 0, 0⟩), disk) ∧
      (Part.syncFile .handlers after "/p/handlers/a.toml").run.run disk =
        (.ok (after, again), disk) ∧ again.created = 0 ∧ again.removed = 0 := by
  let disk := roster ["[day]", "[late]", "[night]", "priority = 1"]
  have reported : ((load "/p" StandardActions.engine false (.standing 0)).outcome?
      (roster ["[day]", "[night]", "[spare]"])).any (fun project =>
        ((Part.syncFile .handlers project "/p/handlers/a.toml").outcome? disk).any fun r =>
          r.2 = ⟨2, 1, 1, 0, 0⟩) := by
    decide +kernel
  obtain ⟨project, loaded, reported⟩ := (Option.any_eq_true ..).1 reported
  have readable : (Disk.documentOf? (disk.find (disk.normalize "/p/handlers/a.toml"))).any fun
      content => content.all fun document => Toml.Value.comparableEntries document.entries := by
    decide +kernel
  obtain ⟨content, read, comparable⟩ := (Option.any_eq_true ..).1 readable
  obtain ⟨after, report, again, ran, -, -, -, -, -, once, created, removed⟩ :=
    sync_applies_the_difference loaded [] .handlers "/p/handlers/a.toml" read
      fun document is => by rw [is] at comparable; exact comparable
  have reported' : report = ⟨2, 1, 1, 0, 0⟩ := by
    change (Part.syncFile .handlers project "/p/handlers/a.toml").run.run disk = _ at ran
    rw [Disk.outcome?, ran] at reported
    simpa [Except.toOption] using reported
  subst reported'
  exact ⟨project, after, again, loaded, ran, once, created, removed⟩

end Project
end ScriptHost
