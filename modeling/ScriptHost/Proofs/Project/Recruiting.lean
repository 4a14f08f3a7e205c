import ScriptHost.Proofs.Project.Definitions
import ScriptHost.Proofs.Project.Refilling
/-!
# What a load makes of handlers

After all handlers were loaded, what can be seen of them and of the dispatchers depends on the
documents, the engine and the registered ids only, not on what was there before.

**What is seen.** `handlerView?`: a handler with its file, its configuration, its program and the
ids of the dispatchers that it is bound to. `fireOf`: what a dispatcher does when it runs is what
the program does that its handlers compile to; if they do not compile together, nothing.

**On the way.** `Vacated`: when all handlers were let go, dispatchers have programs that run
nothing. `Recruiting`: the handlers that were made so far are those of the definitions that were
accepted so far, also in each dispatcher, in that order.

**Results.**
* `programOf_recompileEach`: the programs when all were replaced.
* `load_views`, `load_fires`: what a load comes to.
-/
namespace ScriptHost

open DispatchGraph

/-! ## What is seen of handlers -/

structure HandlerView where
  file : String
  entry : ConfigEntry
  config : HandlerConfig
  program : Option Program
  /-- The ids of the dispatchers that it is bound to, in the order in which that happened. -/
  bound : List String

/-- What is seen of the handler of an id. -/
def handlerView? (registry : Registry (Key .handler)) (g : DispatchGraph) (id : String) :
    Option HandlerView :=
  (registry.get? id).bind fun owned => (g.handlers.get? owned.entity).map fun handler =>
    ⟨owned.file, handler.entry, handler.config, handler.program, g.idsOf handler.bound⟩

/-- What is seen of handlers does not depend on members and programs of dispatchers. -/
theorem handlerView?_of_framed {registry : Registry (Key .handler)} {g g' : DispatchGraph}
    (framed : Framed g g') (id : String) :
    handlerView? registry g' id = handlerView? registry g id := by
  have ids (keys : List (Key .dispatcher)) : g'.idsOf keys = g.idsOf keys :=
    List.filterMap_congr fun d _ => framed.ids d
  simp only [handlerView?, framed.handlers, ids]

namespace Handler

def read? (id : String) (entry : ConfigEntry) : Option HandlerConfig :=
  (HandlerConfig.ofEntry id entry).toOption

/-- The handler that a definition makes, before it is bound. -/
def recruit (engine : Engine) (x : Definition × HandlerConfig) : Handler :=
  let handler : Handler := { id := x.1.id, entry := x.1.entry, config := x.2 }
  { handler with program := (handler.source.compile engine).toOption }

/-- What is seen of the handler that a definition makes, where dispatchers of some ids are
registered. -/
def viewOf (engine : Engine) (registered : String → Bool) (x : Definition × HandlerConfig) :
    HandlerView :=
  ⟨x.1.file, x.1.entry, x.2, (recruit engine x).program, (x.2.bind.filter registered).eraseDups⟩

theorem source_congr {handler other : Handler} (id : handler.id = other.id)
    (config : handler.config = other.config) : handler.source = other.source := by
  simp only [source, routine, id, config]

end Handler

/-! ## What dispatchers do -/

namespace DispatchGraph

variable {g g' : DispatchGraph} {d : Key .dispatcher}

/-- The definitions that name a dispatcher. -/
def recruitsOf (accepted : List (Definition × HandlerConfig)) (name : String) :
    List (Definition × HandlerConfig) :=
  accepted.filter fun x => x.2.bind.contains name

theorem recruitsOf_append (first second : List (Definition × HandlerConfig)) (name : String) :
    recruitsOf (first ++ second) name = recruitsOf first name ++ recruitsOf second name :=
  List.filter_append ..

theorem recruitsOf_singleton (x : Definition × HandlerConfig) (name : String) :
    recruitsOf [x] name = if x.2.bind.contains name then [x] else [] := by
  rw [recruitsOf, List.filter_cons, List.filter_nil]

/-- What running a dispatcher comes to, where dispatchers of some ids are registered and handlers
are those of some definitions. -/
def fireOf (engine : Engine) (registered : String → Bool)
    (accepted : List (Definition × HandlerConfig)) (name : String) (context : Context) :
    Except DispatchError Nat × Context :=
  if registered name then
    let crew := (recruitsOf accepted name).map (Handler.recruit engine)
    Dispatcher.run { id := name,
                     program := ((joinedSource (ranked crew)).compile engine).toOption } context
  else (.error (.notFound name), context)

theorem Dispatcher.run_congr {dispatcher other : Dispatcher} (id : dispatcher.id = other.id)
    (program : dispatcher.program = other.program) (context : Context) :
    dispatcher.run context = other.run context := by
  simp only [Dispatcher.run, id, program]

theorem run_of_no_entries {dispatcher : Dispatcher}
    (nothing : ∀ program, dispatcher.program = some program → program.entries = [])
    (context : Context) : dispatcher.run context = (.ok 0, context) := by
  unfold Dispatcher.run
  cases holds : dispatcher.program with
  | none => rfl
  | some program =>
    simp only [Program.run, nothing program holds, Program.runEntries]
    rfl

theorem toOption_or_twice {ε α : Type} (made : Except ε α) (before : Option α) :
    made.toOption.or (made.toOption.or before) = made.toOption.or before := by
  cases made <;> rfl

/-- When programs were replaced, a dispatcher among them has that of its source, if it
compiles. -/
theorem programOf_recompileEach (keys : List (Key .dispatcher)) : ∀ {g : DispatchGraph},
    g.idOf d ≠ none → (g.recompileEach keys).programOf d =
      if d ∈ keys then ((g.sourceOf d).compile g.engine).toOption.or (g.programOf d)
      else g.programOf d := by
  induction keys with
  | nil => exact fun _ => rfl
  | cons e rest ih =>
    intro g known
    have framed := Framed.recompile g e
    have source : (g.recompile e).sourceOf d = g.sourceOf d := sourceOf_of_framed framed (by simp)
    have known' : (g.recompile e).idOf d ≠ none := by rwa [framed.ids]
    change ((g.recompile e).recompileEach rest).programOf d = _
    rw [ih known', source, framed.engine]
    by_cases same : d = e
    · subst same
      have replaced : (g.recompile d).programOf d =
          ((g.sourceOf d).compile g.engine).toOption.or (g.programOf d) := by
        cases made : (g.sourceOf d).compile g.engine with
        | error refused => rw [programOf_recompile_of_error made]; rfl
        | ok program => rw [programOf_recompile known made]; rfl
      rw [replaced, toOption_or_twice]
      simp
    · rw [programOf_recompile_of_ne same]
      simp [same]

/-! ## When all handlers were let go -/

/-- No handler is there, and registered dispatchers run nothing. -/
structure Vacated (g : DispatchGraph) : Prop where
  tracks : Tracks .empty g
  nothing : ∀ {name d}, g.registry.get? name = some d →
    ∀ program, g.programOf d = some program → program.entries = []

theorem membersOf_of_tracks_empty (tracks : Tracks .empty g) (d : Key .dispatcher) :
    g.membersOf d = [] := by
  refine List.eq_nil_iff_forall_not_mem.2 fun h mem => ?_
  obtain ⟨handler, found, -⟩ := tracks.linked.mem_iff.1 mem
  obtain ⟨owned, known, -⟩ := tracks.owned found
  cases known

theorem entries_of_nothing {engine : Engine} {program : Program}
    (made : (joinedSource []).compile engine = .ok program) : program.entries = [] :=
  (ProgramSource.compile_ok_iff.1 made).2

theorem vacated_of_idle (tracks : Tracks .empty g) (idle : ∀ d, g.Idle d) : g.Vacated := by
  refine ⟨tracks, fun {name d} registered program holds => ?_⟩
  rcases idle d with fresh | ⟨-, among⟩
  · have known : g.idOf d ≠ none := by rw [tracks.linked.registered registered]; nofun
    have source : g.sourceOf d = joinedSource [] := by
      rw [sourceOf, handlersOf_eq, crewOf, membersOf_of_tracks_empty tracks]
      rfl
    obtain ⟨inert, made⟩ := nothing_compiles g.engine
    have current := fresh known inert (source ▸ made)
    rw [← Option.some.inj (current.symm.trans holds)]
    exact entries_of_nothing made
  · obtain ⟨handlers, nobody, made⟩ := among.made program holds
    obtain rfl : handlers = [] :=
      List.eq_nil_iff_forall_not_mem.2 fun h mem => (nobody h mem).1
    exact entries_of_nothing made

end DispatchGraph

/-- Letting all handlers go after dispatchers were registered. -/
theorem vacated_retireAll {past : Prop} {registry : Registry (Key .handler)}
    {g start : DispatchGraph} (inOrder : InOrder past registry g) (fresh : ∀ d, g.Fresh d)
    (registers : Registers g start) :
    let g₀ := Registry.retireAll Handler.kind registry start
    g₀.Vacated ∧ g₀.engine = g.engine ∧ g₀.registry = start.registry := by
  intro g₀
  have tracks : Tracks registry start := by
    refine ⟨registers.linked inOrder.linked, ?_, ?_⟩
    · rw [registers.handlers]
      exact inOrder.entities
    · rw [registers.handlers]
      exact inOrder.owned
  have emptied : Tracks .empty g₀ ∧ (∀ d, g₀.Idle d) ∧ g₀.engine = start.engine ∧
      g₀.registry = start.registry := Registry.retireAll_keeps
    (I := fun r (s : DispatchGraph) => Tracks r s ∧ (∀ d, s.Idle d) ∧ s.engine = start.engine ∧
      s.registry = start.registry)
    (fun {r s id owned} h known => by
      obtain ⟨handler, found, -⟩ := h.1.entities known
      obtain ⟨evolves, linked, stays⟩ := retire_evolves h.1.linked found
      exact ⟨h.1.erase known evolves.toMoves linked, fun d => evolves.idle (stays d) (h.2.1 d),
        evolves.engine.trans h.2.2.1, evolves.registry.trans h.2.2.2⟩)
    ⟨tracks, fun d => registers.idle inOrder.allOwn (fresh d), rfl, rfl⟩
  obtain ⟨tracks, idle, engine, table⟩ := emptied
  exact ⟨vacated_of_idle tracks idle, engine.trans registers.engine, table⟩

/-! ## While handlers are made -/

/-- What holds while handlers are made: those that are there are those of the definitions that
were accepted so far. -/
structure Recruiting (start : DispatchGraph) (done : List (Definition × HandlerConfig))
    (registry : Registry (Key .handler)) (g : DispatchGraph) : Prop where
  inOrder : InOrder False registry g
  sameEngine : g.engine = start.engine
  sameRegistry : g.registry = start.registry
  sameIds : ∀ d, g.idOf d = start.idOf d
  samePrograms : ∀ d, g.programOf d = start.programOf d
  views : ∀ id, handlerView? registry g id =
    (done.find? (·.1.id == id)).map (Handler.viewOf start.engine start.registry.contains)
  crews : ∀ {name d}, start.registry.get? name = some d →
    (g.crewOf d).map Handler.contribution =
      ((recruitsOf done name).map (Handler.recruit start.engine)).map Handler.contribution

/-- What is seen of handlers when there is one more. -/
theorem handlerView?_newcomer {asNamed : Prop} {registry : Registry (Key .handler)}
    {g g' : DispatchGraph} {entry : ConfigEntry} {handler : Handler}
    (inOrder : InOrder asNamed registry g)
    (newcomer : Newcomer asNamed registry entry g g' handler) (file id : String) :
    handlerView? (registry.insert handler.id ⟨file, g.handlers.nextKey⟩) g' id =
      if handler.id = id then
        some ⟨file, handler.entry, handler.config, handler.program, g.idsOf handler.bound⟩
      else handlerView? registry g id := by
  have ids (keys : List (Key .dispatcher)) : g'.idsOf keys = g.idsOf keys :=
    List.filterMap_congr fun d _ => newcomer.ids d
  rw [handlerView?, Table.get?_insert]
  split
  · rw [Option.bind_some, newcomer.found, Option.map_some, ids]
  · cases there : registry.get? id with
    | none => simp [handlerView?, there]
    | some owned =>
      obtain ⟨other, alive, -⟩ := inOrder.entities there
      have notNew : owned.entity ≠ g.handlers.nextKey := by
        intro isNext
        cases newcomer.absent.symm.trans (isNext ▸ alive)
      simp [handlerView?, there, newcomer.handlers, notNew, ids]

namespace Recruiting

variable {start g g' : DispatchGraph} {done : List (Definition × HandlerConfig)}
  {registry : Registry (Key .handler)}

theorem empty (vacated : start.Vacated) : Recruiting start [] .empty start := by
  have gone (h : Key .handler) : start.handlers.get? h = none := by
    cases found : start.handlers.get? h with
    | none => rfl
    | some handler =>
      obtain ⟨owned, known, -⟩ := vacated.tracks.owned found
      cases known
  refine ⟨⟨vacated.tracks, fun found => ?_, nofun⟩, rfl, rfl, fun _ => rfl, fun _ => rfl,
    fun id => rfl, fun _ => ?_⟩
  · cases (gone _).symm.trans found
  · rw [crewOf, membersOf_of_tracks_empty vacated.tracks]
    rfl

theorem known (h : Recruiting start done registry g) (id : String) :
    registry.contains id = Registry.isTaken done id := by
  have seen : (handlerView? registry g id).isSome = registry.contains id := by
    unfold handlerView? Table.contains
    cases found : registry.get? id with
    | none => rfl
    | some owned =>
      obtain ⟨handler, alive, -⟩ := h.inOrder.entities found
      simp [alive]
  rw [← seen, h.views, Option.isSome_map, Registry.isTaken_eq]

theorem failed {id : String} {entry : ConfigEntry} (h : Recruiting start done registry g)
    (made : Handler.kind.create id entry g = (none, g')) :
    Handler.read? id entry = none ∧ Recruiting start done registry g' := by
  rcases Handler.create_cases made with ⟨-, rfl, problem, unread⟩ | ⟨-, some⟩
  · exact ⟨by rw [Handler.read?, unread]; rfl, h⟩
  · cases some

theorem created {id file : String} {entry : ConfigEntry} {k : Key .handler}
    (h : Recruiting start done registry g) (new : registry.contains id = false)
    (made : Handler.kind.create id entry g = (some k, g')) :
    ∃ config, Handler.read? id entry = some config ∧
      Recruiting start (done ++ [(⟨file, id, entry⟩, config)])
        (registry.insert id ⟨file, k⟩) g' := by
  rcases Handler.create_cases made with ⟨none, -⟩ | ⟨created, isNext⟩
  · cases none
  cases isNext
  obtain ⟨handler, rfl, newcomer⟩ := h.inOrder.create new created
  have table : g'.registry = start.registry := newcomer.registry.trans h.sameRegistry
  have program : handler.program =
      (Handler.recruit start.engine (⟨file, handler.id, entry⟩, handler.config)).program := by
    rw [newcomer.portrait.program, h.sameEngine]
    exact congrArg (fun source => (ProgramSource.compile source start.engine).toOption)
      (Handler.source_congr rfl rfl)
  refine ⟨handler.config, by rw [Handler.read?, newcomer.read]; rfl, newcomer.inOrder file,
    newcomer.engine.trans h.sameEngine, table, fun d => (newcomer.ids d).trans (h.sameIds d),
    fun d => (newcomer.programs d).trans (h.samePrograms d), fun id => ?_,
    fun {name d} registered => ?_⟩
  · have notTaken : done.find? (·.1.id == handler.id) = none := by
      rw [← Option.not_isSome_iff_eq_none, ← Registry.isTaken_eq, ← h.known, new]
      exact Bool.false_ne_true
    rw [handlerView?_newcomer h.inOrder newcomer, List.find?_append]
    by_cases isNew : handler.id = id
    · subst isNew
      have bound := newcomer.portrait.bound
      rw [registeredAmong, h.sameRegistry] at bound
      rw [notTaken, if_pos rfl, bound, program, newcomer.portrait.entry]
      simp [Handler.viewOf]
    · rw [if_neg isNew, h.views]
      simp [isNew]
  · have inside : d ∈ handler.bound ↔ handler.config.bind.contains name = true := by
      rw [List.contains_iff_mem]
      exact newcomer.named.mem_bound newcomer.linked (table ▸ registered)
    have contribution : handler.contribution = Handler.contribution
        (Handler.recruit start.engine (⟨file, handler.id, entry⟩, handler.config)) := by
      rw [Handler.contribution, program]
      rfl
    rw [newcomer.toMoves.crewOf_new h.inOrder.linked newcomer.absent, List.map_append,
      h.crews registered,
      recruitsOf_append, recruitsOf_singleton, List.map_append, List.map_append]
    congr 1
    by_cases mem : d ∈ handler.bound
    · rw [if_pos mem, if_pos (inside.1 mem)]
      simp [contribution]
    · rw [if_neg mem, if_neg fun names => mem (inside.2 names)]
      rfl

end Recruiting

/-! ## The whole load -/

section

variable {past : Prop} {registry : Registry (Key .handler)} {g start : DispatchGraph}
  (inOrder : InOrder past registry g) (fresh : ∀ d, g.Fresh d) (registers : Registers g start)
  (documents : List (String × ConfigDocument))

include inOrder fresh registers

/-- What holds when all handlers were made, before programs are replaced. -/
theorem recruited :
    let g₀ := Registry.retireAll Handler.kind registry start
    let l := documents.foldl (Registry.loadFile Handler.kind) ⟨.empty, g₀, {}⟩
    g₀.Vacated ∧ g₀.engine = g.engine ∧ g₀.registry = start.registry ∧
      Recruiting g₀ (Registry.accepted Handler.read? documents) l.registry l.surroundings := by
  intro g₀ l
  obtain ⟨vacated, engine, table⟩ := vacated_retireAll inOrder fresh registers
  refine ⟨vacated, engine, table, ?_⟩
  exact Registry.loadFiles_follows (I := Recruiting g₀) Recruiting.known Recruiting.failed
    Recruiting.created documents
    (l := ⟨.empty, g₀, {}⟩) (Recruiting.empty vacated)

theorem load_registry :
    (registry.load Handler.kind documents start).surroundings.registry = start.registry := by
  obtain ⟨-, -, table, recruiting⟩ := recruited inOrder fresh registers documents
  rw [Registry.load_quiet Handler.kind rfl registry documents start]
  exact (Framed.recompileEach ..).registry.trans (recruiting.sameRegistry.trans table)

/-- What is seen of handlers after a load: those of the first definitions that can be read. -/
theorem load_views (id : String) :
    let l := registry.load Handler.kind documents start
    handlerView? l.registry l.surroundings id =
      (Registry.firstOf Handler.read? id (Registry.definitions documents)).map
        (Handler.viewOf g.engine start.registry.contains) := by
  intro l
  obtain ⟨-, engine, table, recruiting⟩ := recruited inOrder fresh registers documents
  have eq : l = _ := Registry.load_quiet Handler.kind rfl registry documents start
  rw [eq, ← Registry.find?_accepted, ← engine, ← table, ← recruiting.views]
  exact handlerView?_of_framed (.recompileEach ..) id

/-- What running a dispatcher comes to after a load. -/
theorem load_fires (name : String) (context : Context) :
    (registry.load Handler.kind documents start).surroundings.fire name context =
      fireOf g.engine start.registry.contains (Registry.accepted Handler.read? documents) name
        context := by
  obtain ⟨vacated, engine, table, recruiting⟩ := recruited inOrder fresh registers documents
  rw [Registry.load_quiet Handler.kind rfl registry documents start]
  change (recompileAll _).fire name context = _
  generalize documents.foldl (Registry.loadFile Handler.kind) _ = l at *
  generalize Registry.retireAll Handler.kind registry start = g₀ at *
  have framed := Framed.recompileEach l.surroundings.registry.values l.surroundings
  have sameTable : l.surroundings.registry = start.registry := recruiting.sameRegistry.trans table
  unfold fire fireOf
  rw [recompileAll, framed.registry, sameTable]
  cases registered : start.registry.get? name with
  | none => simp [Table.contains, registered]
  | some d =>
    have known : l.surroundings.idOf d = some name :=
      recruiting.inOrder.linked.registered (sameTable ▸ registered)
    have mem : d ∈ l.surroundings.registry.values := by
      rw [sameTable]
      exact List.mem_map.2 ⟨(name, d), (Table.mem_entries_iff ..).2 registered, rfl⟩
    have program := programOf_recompileEach l.surroundings.registry.values (g := l.surroundings)
      (d := d) (by rw [known]; exact Option.some_ne_none _)
    rw [if_pos mem, recruiting.sameEngine, recruiting.samePrograms] at program
    have source : l.surroundings.sourceOf d = joinedSource (ranked
        ((recruitsOf (Registry.accepted Handler.read? documents) name).map
          (Handler.recruit g₀.engine))) := by
      rw [sourceOf, handlersOf_eq]
      exact joinedSource_ranked_congr (recruiting.crews (table ▸ registered))
    rw [sameTable, source, engine] at program
    have id : (l.surroundings.recompileEach start.registry.values).idOf d = some name := by
      rw [← sameTable, framed.ids, known]
    obtain ⟨dispatcher, there, isName⟩ := Option.map_eq_some_iff.1 id
    rw [programOf, there, Option.bind_some] at program
    have contains : start.registry.contains name = true := by simp [Table.contains, registered]
    simp only [Option.bind_some, there, contains, if_true]
    generalize (joinedSource _).compile g.engine = made at program
    cases made with
    | ok made => exact Dispatcher.run_congr isName program context
    | error refused =>
      -- what the dispatcher had before runs nothing either
      rw [run_of_no_entries, run_of_no_entries]
      · intro program holds
        cases holds
      · intro old holds
        exact vacated.nothing (table ▸ registered) old (program.symm.trans holds)

end
end ScriptHost
