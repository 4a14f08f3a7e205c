import ScriptHost.CommandLine
import ScriptHost.Proofs.Dispatch.Entries
import ScriptHost.Proofs.Project.Dispatching
import ScriptHost.Proofs.Project.Ordering
import ScriptHost.Proofs.Project.Reloading
/-!
# What a passing check promises

A check looks at programs that are there, not at sources. That a project was just loaded makes up
for it: no program can be there from before, so each is that of the present source, and a missing
one means that the source does not compile.

**What is said.**
* `Compiles`: the sources of all handlers, of all schedules and of all registered dispatchers
  compile.
* `Lineup`: the handlers that name a dispatcher, in the order of their priorities, and of one
  priority in that of their files and ids.
* `Turns`: the routines of some handlers run in one context, one after the other until one fails.

**On the way.** `UpToDate`: what holds of a project that was just loaded.

**Results.**
* `UpToDate.load`: each program is that of the present source, and the members of a dispatcher were
  bound in the order of their files and ids.
* `passing_check_vouches`: a check passes if and only if all compiles, and then a dispatcher that
  is fired runs every handler that names it.
-/
namespace ScriptHost

open DispatchGraph

/-! ## Turns -/

/-- Handlers run in one context, one after the other, until one fails. -/
inductive Turns (unit : CompiledUnit) :
    List Handler → Context → Option EntryFailure → Context → Prop where
  | over (context : Context) : Turns unit [] context none context
  | next {handler : Handler} {rest : List Handler} {context between after : Context} {value : Value}
      {failure : Option EntryFailure}
      (ran : unit.invoke handler.routine context = (.ok value, between))
      (later : Turns unit rest between failure after) :
      Turns unit (handler :: rest) context failure after
  | failed {handler : Handler} {rest : List Handler} {context after : Context} {error : ScriptError}
      (ran : unit.invoke handler.routine context = (.error error, after)) :
      Turns unit (handler :: rest) context (some ⟨handler.id, error⟩) after

/-- What firing a dispatcher with so many handlers answers. -/
def DispatchError.answer (dispatcher : String) (count : Nat) :
    Option EntryFailure → Except DispatchError Nat
  | none => .ok count
  | some failure => .error (.handlerFailed dispatcher failure.owner failure.error)

theorem turns_runEntries (unit : CompiledUnit) (handlers : List Handler) (context : Context) :
    Turns unit handlers context
      (Program.runEntries unit (handlers.map fun h => ⟨h.id, h.routine⟩) context).1
      (Program.runEntries unit (handlers.map fun h => ⟨h.id, h.routine⟩) context).2 := by
  induction handlers generalizing context with
  | nil => exact .over context
  | cons handler rest ih =>
    rw [List.map_cons, Program.runEntries]
    cases ran : unit.invoke handler.routine context with
    | mk result after =>
      cases result with
      | ok value => exact .next ran (ih after)
      | error error => exact .failed ran

/-- Running a dispatcher is letting its handlers take their turns. -/
theorem Dispatcher.run_turns {dispatcher : Dispatcher} {program : Program} {handlers : List Handler}
    (holds : dispatcher.program = some program)
    (entries : program.entries = handlers.map fun h => ⟨h.id, h.routine⟩) (context : Context) :
    ∃ failure after, Turns program.unit handlers context failure after ∧
      dispatcher.run context =
        (DispatchError.answer dispatcher.id handlers.length failure, after) := by
  have turns := turns_runEntries program.unit handlers context
  refine ⟨_, _, turns, ?_⟩
  rw [Dispatcher.run, holds]
  simp only [Program.run, entries, List.length_map]
  split <;> rename_i eq <;> rw [eq] <;> rfl

namespace ScheduleTask

theorem fromFiles_compiled (env : ScheduleEnvironment) (files : List (String × ConfigDocument)) :
    ∀ id owned, (fromFiles env files).get? id = some owned →
      owned.entity.program = (owned.entity.source.compile env.engine).toOption := by
  refine (forall_fromFiles (P := fun _ task =>
    task.program = (task.source.compile env.engine).toOption) env (fun created => ?_) files).2
  obtain ⟨config, -, rfl⟩ := create_ok_iff.1 created
  rw [recompile_eq]
  exact Option.or_none

end ScheduleTask

/-- One entity is defined before another: in an earlier file, or in the same under a smaller id. -/
def Registry.DefinedBefore {α : Type} (registry : Registry α) (id other : String) : Prop :=
  ∃ owned owned', registry.get? id = some owned ∧ registry.get? other = some owned' ∧
    (owned.file < owned'.file ∨ owned.file = owned'.file ∧ id < other)

theorem Registry.DefinedBefore.asymm {α : Type} {registry : Registry α} {id other : String}
    (h : registry.DefinedBefore id other) : ¬ registry.DefinedBefore other id := by
  obtain ⟨owned, owned', known, known', before⟩ := h
  rintro ⟨_, _, again', again, after⟩
  cases known.symm.trans again
  cases known'.symm.trans again'
  rcases before with earlier | ⟨same, smaller⟩
  · rcases after with later | ⟨same, -⟩
    · exact String.lt_asymm earlier later
    · exact String.lt_irrefl _ (same ▸ earlier)
  · rcases after with later | ⟨-, greater⟩
    · exact String.lt_irrefl _ (same ▸ later)
    · exact String.lt_asymm smaller greater

namespace Project

variable {root name : String} {engine : Engine} {extend : Bool} {clock : WallClock}
  {disk : FileTree} {project : Project} {d : Key .dispatcher}

/-! ## A project that was just loaded -/

/-- All programs are those of the present sources, and members were bound in the order in which
they are defined. -/
structure UpToDate (project : Project) : Prop where
  inOrder : InOrder True project.handlers project.graph
  handlers : ∀ {h handler}, project.graph.handlers.get? h = some handler →
    handler.program = (handler.source.compile project.graph.engine).toOption
  dispatchers : ∀ {name d}, project.graph.registry.get? name = some d →
    project.graph.programOf d =
      ((project.graph.sourceOf d).compile project.graph.engine).toOption
  schedules : ∀ {id owned}, project.board.tasks.get? id = some owned →
    owned.entity.program = (owned.entity.source.compile project.graph.engine).toOption
  crews : ∀ {name d}, project.graph.registry.get? name = some d →
    (project.graph.crewOf d).Pairwise fun first second =>
      project.handlers.DefinedBefore first.id second.id

/-- A load makes handlers one by one, each bound to the registered dispatchers that it names, and
compiles the dispatchers when all are there. -/
theorem load_recruits (loaded : (load root engine extend clock).outcome? disk = some project) :
    ∃ documents start g, (Disk.prepare (Path.join root handlersDirectory)).outcome? disk =
        some documents ∧
      Recruiting start (Registry.accepted Handler.read? documents) project.handlers g ∧
      (∀ d, start.programOf d = none) ∧ project.graph = g.recompileAll := by
  obtain ⟨settings, documents, schedules, read, rfl⟩ := load_iff.1 loaded
  let first := blank root (engineFor engine extend settings) clock settings
  let start := first.graph.registerOnly settings.dispatchers
  have steady : Steady False ⟨first, _⟩ :=
    .blank root (engineFor engine extend settings) clock settings
  have registers := Registers.registerOnly first.graph settings.dispatchers
  obtain ⟨-, -, -, recruiting⟩ := recruited steady.inOrder steady.fresh registers documents
  have made := Registry.load_quiet Handler.kind rfl .empty documents start
  refine ⟨documents, start, _, ?_, ?_, fun d => registers.programOf d,
    congrArg (·.surroundings) made⟩
  · obtain ⟨_, after, readSettings, read⟩ := Disk.outcome?_bind_eq_some.1 read
    obtain ⟨_, again, -⟩ := Disk.gives_readSettings root disk
    cases readSettings.symm.trans again
    obtain ⟨listed, after, prepared, read⟩ := Disk.outcome?_bind_eq_some.1 read
    obtain ⟨_, _, -, read⟩ := Disk.outcome?_bind_eq_some.1 read
    cases read
    rw [Disk.outcome?, prepared]
    rfl
  · change Recruiting _ _ (Registry.load Handler.kind .empty documents start).registry _
    rw [made]
    exact recruiting

section Recruits

variable {start g : DispatchGraph} {done : List (Definition × HandlerConfig)}
  {registry : Registry (Key .handler)} (recruiting : Recruiting start done registry g)

include recruiting

theorem compiled_recruit {h : Key .handler} {handler : Handler}
    (found : g.handlers.get? h = some handler) :
    handler.program = (handler.source.compile start.engine).toOption := by
  obtain ⟨owned, known, rfl⟩ := recruiting.inOrder.owned found
  have view := recruiting.views handler.id
  rw [handlerView?, known, Option.bind_some, found, Option.map_some] at view
  obtain ⟨x, first, is⟩ := Option.map_eq_some_iff.1 view.symm
  have isId : x.1.id = handler.id := by simpa using List.find?_some first
  have config : x.2 = handler.config := congrArg HandlerView.config is
  have program : (Handler.recruit start.engine x).program = handler.program :=
    congrArg HandlerView.program is
  refine program.symm.trans ?_
  exact congrArg (fun source => (ProgramSource.compile source start.engine).toOption)
    (Handler.source_congr isId config)

theorem file_of_recruit (nodup : (done.map (·.1.id)).Nodup) {x : Definition × HandlerConfig}
    (mem : x ∈ done) : ∃ owned, registry.get? x.1.id = some owned ∧ owned.file = x.1.file := by
  have first : done.find? (·.1.id == x.1.id) = some x := by
    have some : (done.find? (·.1.id == x.1.id)).isSome := List.find?_isSome.2 ⟨x, mem, by simp⟩
    obtain ⟨y, found⟩ := Option.isSome_iff_exists.1 some
    have same : y.1.id = x.1.id := by simpa using List.find?_some found
    rw [found, List.inj_on_of_nodup_map nodup (List.mem_of_find?_eq_some found) mem same]
  have view := recruiting.views x.1.id
  rw [first, Option.map_some, handlerView?] at view
  obtain ⟨owned, known, view⟩ := Option.bind_eq_some_iff.1 view
  obtain ⟨handler, -, is⟩ := Option.map_eq_some_iff.1 view
  exact ⟨owned, known, congrArg HandlerView.file is⟩

theorem crew_in_order (ascending : done.Pairwise fun x y => x.1.Before y.1)
    (nodup : (done.map (·.1.id)).Nodup) (registered : start.registry.get? name = some d) :
    (g.crewOf d).Pairwise fun first second => registry.DefinedBefore first.id second.id := by
  have ids : (g.crewOf d).map (·.id) = (recruitsOf done name).map (·.1.id) := by
    have same := congrArg (List.map Prod.fst) (recruiting.crews registered)
    rw [List.map_map, List.map_map, List.map_map] at same
    exact same
  have sorted : ((recruitsOf done name).map (·.1.id)).Pairwise registry.DefinedBefore := by
    refine List.pairwise_map.2 ((ascending.filter _).imp_of_mem fun {x y} mem mem' before => ?_)
    obtain ⟨owned, known, file⟩ := file_of_recruit recruiting nodup (List.mem_filter.1 mem).1
    obtain ⟨owned', known', file'⟩ := file_of_recruit recruiting nodup (List.mem_filter.1 mem').1
    refine ⟨owned, owned', known, known', ?_⟩
    rw [file, file']
    exact before
  rw [← ids] at sorted
  exact List.pairwise_map.1 sorted

end Recruits

theorem compiled_schedules (loaded : (load root engine extend clock).outcome? disk = some project) :
    ∀ id owned, project.board.tasks.get? id = some owned →
      owned.entity.program = (owned.entity.source.compile project.board.env.engine).toOption := by
  obtain ⟨settings, _, schedules, -, rfl⟩ := load_iff.1 loaded
  let board := (blank root (engineFor engine extend settings) clock settings).board
  have stopped : board.env.active = false := rfl
  obtain ⟨tasks, env⟩ := ScheduleTask.load_stopped stopped .empty schedules
  rw [board_take_everything]
  change ∀ id owned, (Registry.load ScheduleTask.kind .empty schedules board.env).registry.get? id =
    some owned → owned.entity.program = (owned.entity.source.compile
      (Registry.load ScheduleTask.kind .empty schedules board.env).surroundings.engine).toOption
  rw [tasks, env]
  exact ScheduleTask.fromFiles_compiled board.env schedules

/-- After a load all programs are those of the sources that were read. -/
theorem UpToDate.load (disk : ProperTree)
    (loaded : (load root engine extend clock).outcome? disk.tree = some project) :
    project.UpToDate := by
  have lasting := Lasting.load loaded
  obtain ⟨documents, start, g, read, recruiting, blank, graph⟩ := load_recruits loaded
  obtain ⟨home, entries, listed⟩ := Disk.documents_of_prepare disk read
  have framed : Framed g project.graph := graph ▸ Framed.recompileEach g.registry.values g
  have members (d : Key .dispatcher) : project.graph.membersOf d = g.membersOf d := by
    rw [graph]
    exact membersOf_recompileEach ..
  have sameEngine : project.graph.engine = start.engine :=
    framed.engine.trans recruiting.sameEngine
  have sameRegistry : project.graph.registry = start.registry :=
    framed.registry.trans recruiting.sameRegistry
  refine ⟨?_, fun {h handler} found => ?_, fun {name d} registered => ?_,
    fun {id owned} known => ?_, fun {name d} registered => ?_⟩
  · rw [← Trace.project_load, Disk.outcome?_map, Option.map_eq_some_iff] at loaded
    obtain ⟨t, loaded, rfl⟩ := loaded
    have steady : Steady True t := .load loaded
    exact steady.inOrder
  · rw [framed.handlers] at found
    rw [sameEngine]
    exact compiled_recruit recruiting found
  · rw [framed.registry] at registered
    have known : g.idOf d ≠ none := by
      rw [recruiting.inOrder.linked.registered registered]
      exact Option.some_ne_none _
    have mem : d ∈ g.registry.values :=
      List.mem_map.2 ⟨(name, d), (Table.mem_entries_iff ..).2 registered, rfl⟩
    have replaced := programOf_recompileEach g.registry.values known
    rw [if_pos mem, recruiting.samePrograms, blank, Option.or_none] at replaced
    rw [sourceOf_of_framed framed (members d), framed.engine, graph]
    exact replaced
  · have engines : project.board.env.engine = project.graph.engine :=
      lasting.orderly.engine.trans lasting.sameEngine.symm
    rw [← engines]
    exact compiled_schedules loaded id owned known
  · have crew : project.graph.crewOf d = g.crewOf d := by
      rw [crewOf, crewOf, members, framed.handlers]
    rw [crew]
    exact crew_in_order recruiting (Registry.accepted_ascending listed.ascending)
      (Registry.nodup_accepted documents) (sameRegistry ▸ registered)

/-! ## What a check looks at -/

/-- The sources of all handlers, of all schedules and of all registered dispatchers compile. -/
structure Compiles (project : Project) : Prop where
  handlers : ∀ id owned, project.handlers.get? id = some owned →
    ∃ handler, project.graph.handlers.get? owned.entity = some handler ∧
      ∃ program, handler.source.compile project.graph.engine = .ok program
  schedules : ∀ id owned, project.board.tasks.get? id = some owned →
    ∃ program, owned.entity.source.compile project.graph.engine = .ok program
  dispatchers : ∀ name d, project.graph.registry.get? name = some d →
    ∃ program, (project.graph.sourceOf d).compile project.graph.engine = .ok program

theorem mem_liveHandlers {id : String} {handler : Handler} :
    (id, handler) ∈ project.liveHandlers ↔ ∃ owned, project.handlers.get? id = some owned ∧
      project.graph.handlers.get? owned.entity = some handler := by
  simp only [liveHandlers, List.mem_filterMap, Option.map_eq_some_iff, Prod.mk.injEq]
  constructor
  · rintro ⟨⟨id, owned⟩, mem, handler, found, rfl, rfl⟩
    exact ⟨owned, (Table.mem_entries_iff ..).1 mem, found⟩
  · rintro ⟨owned, known, found⟩
    exact ⟨(id, owned), (Table.mem_entries_iff ..).2 known, handler, found, rfl, rfl⟩

theorem mem_liveDispatchers {dispatcher : Dispatcher} :
    (name, dispatcher) ∈ project.liveDispatchers ↔ ∃ d, project.graph.registry.get? name = some d ∧
      project.graph.dispatchers.get? d = some dispatcher := by
  simp only [liveDispatchers, List.mem_filterMap, Option.map_eq_some_iff, Prod.mk.injEq]
  constructor
  · rintro ⟨⟨name, d⟩, mem, dispatcher, found, rfl, rfl⟩
    exact ⟨d, (Table.mem_entries_iff ..).1 mem, found⟩
  · rintro ⟨d, known, found⟩
    exact ⟨(name, d), (Table.mem_entries_iff ..).2 known, dispatcher, found, rfl, rfl⟩

theorem UpToDate.dispatcher (current : project.UpToDate) {dispatcher : Dispatcher}
    (registered : project.graph.registry.get? name = some d)
    (found : project.graph.dispatchers.get? d = some dispatcher) :
    ((project.graph.sourceOf d).compile project.graph.engine).toOption = dispatcher.program := by
  rw [← current.dispatchers registered, programOf, found, Option.bind_some]

/-- Where all programs are those of the present sources, they are all there exactly if all sources
compile. -/
theorem UpToDate.isSound_iff (current : project.UpToDate) :
    project.isSound = true ↔ project.Compiles := by
  have linked := current.inOrder.linked
  rw [isSound, Bool.and_eq_true, Bool.and_eq_true, List.all_eq_true, List.all_eq_true,
    List.all_eq_true]
  constructor
  · rintro ⟨⟨handlers, dispatchers⟩, schedules⟩
    refine ⟨fun id owned known => ?_, fun id owned known => ?_, fun name d registered => ?_⟩
    · obtain ⟨handler, found, -⟩ := current.inOrder.entities known
      have there := handlers (id, handler) (mem_liveHandlers.2 ⟨owned, known, found⟩)
      exact ⟨handler, found, ok_of_isSome (current.handlers found ▸ there)⟩
    · have there := schedules owned (Grammar.mem_values.2 ⟨id, known⟩)
      exact ok_of_isSome (current.schedules known ▸ there)
    · obtain ⟨dispatcher, found, -⟩ := Option.map_eq_some_iff.1 (linked.registered registered)
      have there := dispatchers (name, dispatcher) (mem_liveDispatchers.2 ⟨d, registered, found⟩)
      exact ok_of_isSome (current.dispatcher registered found ▸ there)
  · rintro ⟨handlers, schedules, dispatchers⟩
    refine ⟨⟨fun ⟨id, handler⟩ mem => ?_, fun ⟨name, dispatcher⟩ mem => ?_⟩, fun owned mem => ?_⟩
    · obtain ⟨owned, known, found⟩ := mem_liveHandlers.1 mem
      obtain ⟨_, found', compiles⟩ := handlers id owned known
      cases found.symm.trans found'
      obtain ⟨program, made⟩ := compiles
      simp only [current.handlers found, made]
      rfl
    · obtain ⟨d, registered, found⟩ := mem_liveDispatchers.1 mem
      obtain ⟨program, made⟩ := dispatchers name d registered
      simp only [← current.dispatcher registered found, made]
      rfl
    · obtain ⟨id, known⟩ := Grammar.mem_values.1 mem
      obtain ⟨program, made⟩ := schedules id owned known
      rw [current.schedules known, made]
      rfl

/-! ## What is fired -/

/-- The handlers of a project that name a dispatcher, in the order in which they are to run: the
highest priority first, and of one priority in the order in which they are defined. -/
structure Lineup (project : Project) (name : String) (handlers : List Handler) : Prop where
  mem_iff : ∀ handler, handler ∈ handlers ↔
    (∃ owned, project.handlers.get? handler.id = some owned ∧
      project.graph.handlers.get? owned.entity = some handler) ∧ name ∈ handler.config.bind
  once : (handlers.map (·.id)).Nodup
  sorted : handlers.Pairwise (RunsBefore fun first second =>
    project.handlers.DefinedBefore first.id second.id)

theorem Lineup.unique {handlers other : List Handler} (h : project.Lineup name handlers)
    (h' : project.Lineup name other) : handlers = other := by
  have perm : handlers.Perm other :=
    (List.perm_ext_iff_of_nodup (.of_map _ h.once) (.of_map _ h'.once)).2 fun x =>
      (h.mem_iff x).trans (h'.mem_iff x).symm
  refine perm.eq_of_pairwise (fun x y _ _ first second => ?_) h.sorted h'.sorted
  exact absurd second (first.asymm fun _ _ before => before.asymm)

namespace UpToDate

variable (current : project.UpToDate) (registered : project.graph.registry.get? name = some d)

include current registered

theorem lineup : project.Lineup name (project.graph.handlersOf d) := by
  have inOrder := current.inOrder
  have linked := inOrder.linked
  refine ⟨fun handler => ?_, ?_, ?_⟩
  · rw [mem_handlersOf]
    constructor
    · rintro ⟨h, member, found⟩
      obtain ⟨_, found', bound⟩ := linked.mem_iff.1 member
      cases found.symm.trans found'
      obtain ⟨owned, known, rfl⟩ := inOrder.owned found
      have named := (inOrder.named trivial found).mem_bound linked registered
      exact ⟨⟨owned, known, found⟩, named.1 bound⟩
    · rintro ⟨⟨owned, known, found⟩, named⟩
      have bound := ((inOrder.named trivial found).mem_bound linked registered).2 named
      exact ⟨owned.entity, linked.mem_iff.2 ⟨handler, found, bound⟩, found⟩
  · have apart : ((project.graph.crewOf d).map (·.id)).Nodup := by
      refine List.pairwise_map.2 ((current.crews registered).imp fun before same => ?_)
      rw [same] at before
      exact before.asymm before
    rw [handlersOf_eq]
    exact ((ranked_perm _).map Handler.id).nodup_iff.2 apart
  · rw [handlersOf_eq]
    exact pairwise_ranked (current.crews registered)

/-- A dispatcher lets its handlers take their turns, each with its own routine. -/
theorem fires (compiles : project.Compiles) {handlers : List Handler}
    (lineup : project.Lineup name handlers) :
    ∃ program, (concatenated handlers).compile project.graph.engine = .ok program ∧
      (∀ handler ∈ handlers, program.unit.contains handler.routine ∧ ∀ other ∈ handlers, ∀ own,
        other.program = some own → own.unit.contains handler.routine → other = handler) ∧
      ∀ context, ∃ failure after, Turns program.unit handlers context failure after ∧
        project.graph.fire name context =
          (DispatchError.answer name handlers.length failure, after) := by
  obtain rfl := lineup.unique (current.lineup registered)
  have own : ∀ h ∈ project.graph.handlersOf d, h.HoldsOwn project.graph.engine := by
    intro handler mem
    obtain ⟨h, -, found⟩ := mem_handlersOf.1 mem
    exact current.inOrder.allOwn h handler found
  have there : ∀ h ∈ project.graph.handlersOf d, ∃ program,
      h.source.compile project.graph.engine = .ok program ∧ h.program = some program := by
    intro handler mem
    obtain ⟨⟨owned, known, found⟩, -⟩ := (lineup.mem_iff handler).1 mem
    obtain ⟨_, found', program, made⟩ := compiles.handlers _ owned known
    cases found.symm.trans found'
    exact ⟨program, made, by rw [current.handlers found, made]; rfl⟩
  have source : project.graph.sourceOf d = concatenated (project.graph.handlersOf d) := by
    rw [sourceOf, joinedSource_eq own, List.filter_eq_self.2 fun h mem => ?_]
    obtain ⟨program, -, holds⟩ := there h mem
    rw [holds]
    rfl
  obtain ⟨program, made⟩ := compiles.dispatchers name d registered
  obtain ⟨dispatcher, found, isName⟩ :=
    Option.map_eq_some_iff.1 (current.inOrder.linked.registered registered)
  have holds : dispatcher.program = some program := by
    rw [← current.dispatcher registered found, made]
    rfl
  refine ⟨program, source ▸ made, fun handler mem => ?_, fun context => ?_⟩
  · obtain ⟨own', made', holds'⟩ := there handler mem
    have mine := (assembled_of_source made').1
    have inside : own'.unit ∈ unitsOf (project.graph.handlersOf d) :=
      mem_unitsOf.2 ⟨handler, mem, own', holds', rfl⟩
    exact ⟨joined_contains own made inside mine, fun other mem' _ holds known =>
      (separate_of_compiles own made).only mem mem' holds' holds mine known⟩
  · have entries := (ProgramSource.compile_ok_iff.1 made).2
    rw [source] at entries
    have fired : project.graph.fire name context = dispatcher.run context := by
      rw [DispatchGraph.fire, registered, Option.bind_some, found]
    rw [fired, ← isName]
    exact dispatcher.run_turns holds entries context

end UpToDate

/-! ## The command -/

theorem check_code {disk : FileTree}
    (loaded : (Project.load root Engine.core true (.following 0)).outcome? disk = some project) :
    ((check root).run disk).1.code = if project.isSound then .success else .failure := by
  obtain ⟨after, ran⟩ : ∃ after, (Project.load root Engine.core true (.following 0)).run.run disk =
      (.ok project, after) := ⟨_, Prod.ext (toOption_eq_some.1 loaded) rfl⟩
  simp only [check, withLoaded, StateT.run_bind, ran]
  rfl

/-- Of a project that can be loaded from a disk with proper directories: a check passes if and only
if the sources of all handlers and schedules compile and, of each registered dispatcher, what is
joined from its handlers. If it passes, then whichever registered dispatcher is fired, in whatever
context: every handler that names it takes its turn, once, in the order of the priorities, and of
one priority in that of files and ids, until one fails. Each runs a routine that is its own, since
in what is current nobody else defines one of that name. -/
theorem passing_check_vouches {disk : FileTree} {project : Project}
    (loaded : (Project.load root Engine.core true (.following 0)).outcome? disk = some project)
    (proper : disk.Proper) :
    let code := ((check root).run disk).1.code
    (code = .success ↔ project.Compiles) ∧
    (code = .success → ∀ name, project.graph.registry.contains name →
      (∃ handlers, project.Lineup name handlers) ∧
      ∀ handlers, project.Lineup name handlers →
        ∃ program, (concatenated handlers).compile project.graph.engine = .ok program ∧
          (∀ handler ∈ handlers, program.unit.contains handler.routine ∧ ∀ other ∈ handlers, ∀ own,
            other.program = some own → own.unit.contains handler.routine → other = handler) ∧
          ∀ context, ∃ failure after, Turns program.unit handlers context failure after ∧
            project.graph.fire name context =
              (DispatchError.answer name handlers.length failure, after)) := by
  intro code
  have current : project.UpToDate := .load ⟨disk, proper⟩ loaded
  have passes : code = .success ↔ project.Compiles := by
    rw [← current.isSound_iff]
    change ((check root).run disk).1.code = _ ↔ _
    rw [check_code loaded]
    cases project.isSound <;> simp
  refine ⟨passes, fun success name registered => ?_⟩
  obtain ⟨d, registered⟩ := Option.isSome_iff_exists.1 registered
  exact ⟨⟨_, current.lineup registered⟩, fun handlers lineup =>
    current.fires registered (passes.1 success) lineup⟩

/-- A project with one dispatcher, three handlers and a schedule. -/
def choir : FileTree := .directory [("p", .directory [
  ("vesper.toml", textFile ["dispatchers = [\"d\"]"]),
  ("handlers", .directory [("all.toml", textFile [
    "[a]", "bind = \"d\"", "handle = \"print *first\"",
    "[b]", "bind = \"d\"", "priority = 20", "handle = \"print *urgent\"",
    "[c]", "bind = \"d\"", "handle = \"throw *enough\""])]),
  ("schedules", .directory [("all.toml", textFile ["[s]", "execute = \"print *tick\""])])])]

theorem choir_proper : choir.Proper := by
  refine .directory (by decide) (by decide +kernel) (List.forall_mem_singleton.2 ?_)
  refine .directory (by decide) (by decide +kernel) ?_
  simp only [List.forall_mem_cons]
  refine ⟨.file _, ?_, ?_, by simp⟩
  · exact .directory (by decide) (by decide +kernel) (List.forall_mem_singleton.2 (.file _))
  · exact .directory (by decide) (by decide +kernel) (List.forall_mem_singleton.2 (.file _))

/-- A dispatcher is there, and these are its handlers in their order. -/
def LinedUp (ids : List String) (project : Project) : Prop :=
  project.isSound = true ∧ project.graph.registry.get? "d" = some ⟨0⟩ ∧
    (project.graph.handlersOf ⟨0⟩).map (·.id) = ids

instance (ids : List String) (project : Project) : Decidable (LinedUp ids project) :=
  inferInstanceAs (Decidable (_ ∧ _ ∧ _))

theorem passing_check_vouches_choir : ∃ project,
    (Project.load "/p" Engine.core true (.following 0)).outcome? choir = some project ∧
    ((check "/p").run choir).1.code = .success ∧ choir.Proper ∧
    ∃ handlers program, project.Lineup "d" handlers ∧ handlers.map (·.id) = ["b", "a", "c"] ∧
      (concatenated handlers).compile project.graph.engine = .ok program ∧
      ∃ failure after, Turns program.unit handlers {} failure after ∧
        project.graph.fire "d" {} = (DispatchError.answer "d" 3 failure, after) := by
  have opens : ((Project.load "/p" Engine.core true (.following 0)).outcome? choir).any
      (fun project => decide (LinedUp ["b", "a", "c"] project)) = true := by decide +kernel
  obtain ⟨project, loaded, is⟩ := (Option.any_eq_true _ _).1 opens
  obtain ⟨isSound, registered, ids⟩ := of_decide_eq_true is
  have passes : ((check "/p").run choir).1.code = .success := by
    rw [check_code loaded, isSound]
    rfl
  obtain ⟨-, vouched⟩ := passing_check_vouches loaded choir_proper
  obtain ⟨⟨handlers, lineup⟩, runs⟩ :=
    vouched passes "d" (by rw [Table.contains, registered]; rfl)
  obtain ⟨program, made, -, fires⟩ := runs handlers lineup
  obtain ⟨failure, after, turns, fired⟩ := fires {}
  have same : handlers = project.graph.handlersOf ⟨0⟩ :=
    lineup.unique ((UpToDate.load ⟨choir, choir_proper⟩ loaded).lineup registered)
  have names : handlers.map (·.id) = ["b", "a", "c"] := same ▸ ids
  have three : handlers.length = 3 := by
    rw [← List.length_map (f := (·.id)), names]
    rfl
  exact ⟨project, loaded, passes, choir_proper, handlers, program, lineup, names, made, failure,
    after, turns, three ▸ fired⟩

end Project
end ScriptHost
