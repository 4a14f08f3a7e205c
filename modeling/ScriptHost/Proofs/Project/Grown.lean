import ScriptHost.Proofs.Dispatch.Entries
import ScriptHost.Proofs.Dispatch.Sparing
import ScriptHost.Proofs.Project.Dispatching
import ScriptHost.Proofs.Project.Sessions
/-!
# No routine is missed

A dispatch graph grows out of an empty one by operations on its handlers and dispatchers, in
whatever order. However it did, all programs in it were made of sources of handlers, so they have
the routines that they run.

**What holds.** `Grown`: the graph came about by such operations. `Sourced`: every handler has a
program of its own, if any, and the program of every dispatcher was made of handlers with such.

**Results.**
* `Grown.sourced`: whatever has grown is sourced.
* `grown_session`: all through a session, the graph of a loaded project has grown.
* `no_routine_is_missed`: neither a compiled unit nor a dispatcher ever fails for want of a
  routine.
-/
namespace ScriptHost

namespace DispatchGraph

/-- The graphs that an empty one becomes by operations on handlers and dispatchers. -/
inductive Grown (engine : Engine) : DispatchGraph → Prop where
  | empty : Grown engine { engine }
  | register {g} (grown : Grown engine g) (id : String) : Grown engine (g.register id)
  | registerOnly {g} (grown : Grown engine g) (ids : List String) :
      Grown engine (g.registerOnly ids)
  | addMember {g} (grown : Grown engine g) (d : Key .dispatcher) (h : Key .handler) :
      Grown engine (g.addMember d h)
  | removeMember {g} (grown : Grown engine g) (d : Key .dispatcher) (h : Key .handler) :
      Grown engine (g.removeMember d h)
  | recompile {g} (grown : Grown engine g) (d : Key .dispatcher) : Grown engine (g.recompile d)
  | recompileHandler {g} (grown : Grown engine g) (h : Key .handler) :
      Grown engine (g.recompileHandler h).1
  | create {g g'} (grown : Grown engine g) {id : String} {entry : ConfigEntry}
      (made : g.create id entry = .ok g') : Grown engine g'
  | update {g} (grown : Grown engine g) (h : Key .handler) (entry : ConfigEntry) :
      Grown engine (g.update h entry).1
  | rebind {g} (grown : Grown engine g) (h : Key .handler) (reorder : Bool) :
      Grown engine (g.rebind h reorder)
  | unbindAll {g} (grown : Grown engine g) (h : Key .handler) : Grown engine (g.unbindAll h)
  | drop {g} (grown : Grown engine g) (h : Key .handler) : Grown engine (g.drop h)

theorem Grown.recompileEach {engine : Engine} (keys : List (Key .dispatcher)) :
    ∀ {g : DispatchGraph}, Grown engine g → Grown engine (g.recompileEach keys) := by
  induction keys with
  | nil => exact id
  | cons d rest ih => exact fun grown => ih (grown.recompile d)

/-! ## Where programs come from -/

/-- Every handler has a program of its own, if any, and the program of every dispatcher was made
of handlers with such. -/
def Sourced (g : DispatchGraph) : Prop := ∀ d, g.Among d fun _ => True

variable {g g' middle : DispatchGraph} {k : Key .handler} {handler : Handler}

namespace Sourced

theorem of_same (sourced : g.Sourced) (own : g'.AllOwn) (engine : g'.engine = g.engine)
    (programs : ∀ d, g'.programOf d = g.programOf d) : g'.Sourced :=
  fun d => (sourced d).of_same own engine (programs d) fun _ _ => trivial

theorem own (sourced : g.Sourced) : g.AllOwn := (sourced ⟨0⟩).own

theorem retouched (sourced : g.Sourced) (touched : Retouched k handler g g')
    (own : handler.HoldsOwn g.engine) : g'.Sourced :=
  fun d => touched.among (sourced d) own fun _ => trivial

theorem setBound (sourced : g.Sourced) (k : Key .handler) (bound : List (Key .dispatcher)) :
    (g.setBound k bound).Sourced := by
  refine sourced.of_same (fun h other found => ?_) rfl fun _ => rfl
  rw [DispatchGraph.setBound, Store.get?_modify] at found
  split at found
  · obtain ⟨before, found', rfl⟩ := Option.map_eq_some_iff.1 found
    exact (sourced.own h before found').congr rfl rfl
  · exact sourced.own h other found

theorem leaveUnnamed (sourced : g.Sourced) (named : List String) (reorder : Bool)
    (bound : List (Key .dispatcher)) :
    (DispatchGraph.leaveUnnamed k named reorder g bound).1.Sourced :=
  fun d => (sourced d).leaveUnnamed bound

theorem joinNamed (reorder : Bool) (names : List String) : ∀ {g : DispatchGraph}
    {bound : List (Key .dispatcher)}, g.Sourced →
    (DispatchGraph.joinNamed k reorder g bound names).1.Sourced := by
  induction names with
  | nil => exact fun sourced => sourced
  | cons id rest ih =>
    intro g bound sourced
    rw [DispatchGraph.joinNamed]
    split
    · exact ih sourced
    · split
      · exact ih sourced
      · exact ih fun d => (sourced d).join fun _ _ _ => trivial

theorem rebind (sourced : g.Sourced) (k : Key .handler) (reorder : Bool) :
    (g.rebind k reorder).Sourced := by
  unfold DispatchGraph.rebind
  split
  · exact sourced
  · exact (joinNamed reorder _ (sourced.leaveUnnamed _ reorder _)).setBound k _

theorem unbindAll (sourced : g.Sourced) (k : Key .handler) : (g.unbindAll k).Sourced := by
  unfold DispatchGraph.unbindAll
  split
  · exact sourced
  · exact fun d => ((sourced.setBound k []) d).leaveEach k _

theorem recompileHandler (sourced : g.Sourced) (k : Key .handler) :
    (g.recompileHandler k).1.Sourced := by
  cases found : g.handlers.get? k with
  | none => simpa only [DispatchGraph.recompileHandler, found] using sourced
  | some handler =>
    obtain ⟨program, own, touched, -⟩ :=
      recompileHandler_retouched found (sourced.own k handler found)
    exact sourced.retouched touched own

theorem create (sourced : g.Sourced) {id : String} {entry : ConfigEntry}
    (made : g.create id entry = .ok g') : g'.Sourced := by
  simp only [DispatchGraph.create, bind_eq_ok, pure_eq_ok] at made
  obtain ⟨config, -, rfl⟩ := made
  have added : Retouched g.handlers.nextKey { id, entry, config } g
      { g with handlers := g.handlers.add { id, entry, config } } :=
    ⟨rfl, rfl, rfl, Store.get?_add _ _⟩
  exact ((sourced.retouched added fun _ held => by cases held).recompileHandler _).rebind _ false

theorem update (sourced : g.Sourced) (k : Key .handler) (entry : ConfigEntry) :
    (g.update k entry).1.Sourced := by
  refine update_keeps sourced (fun {handler config} found _ => ?_) (·.recompileHandler k)
    (fun sourced => sourced.rebind k) fun sourced keys d => (sourced d).recompileEach keys
  have given := Retouched.modify (f := fun handler => { handler with entry, config }) found
  exact sourced.retouched given ((sourced.own k handler found).congr rfl rfl)

theorem drop (sourced : g.Sourced) (k : Key .handler) : (g.drop k).Sourced := by
  refine sourced.of_same (fun h other found => ?_) rfl fun _ => rfl
  rw [DispatchGraph.drop, Store.get?_erase] at found
  split at found
  · cases found
  · exact sourced.own h other found

theorem registers (sourced : g.Sourced) (registers : Registers g g') : g'.Sourced := by
  refine sourced.of_same (fun h other found => ?_) registers.engine registers.programOf
  rw [registers.engine]
  exact sourced.own h other (registers.handlers ▸ found)

end Sourced

theorem Grown.sourced {engine : Engine} (grown : Grown engine g) :
    g.engine = engine ∧ g.Sourced := by
  induction grown with
  | empty => exact ⟨rfl, fun d => ⟨fun _ _ => nofun, fun _ => nofun, fun _ => nofun⟩⟩
  | @register g _ id ih =>
    have registers := (Registers.refl g).register id
    exact ⟨registers.engine.trans ih.1, ih.2.registers registers⟩
  | @registerOnly g _ ids ih =>
    have registers := Registers.registerOnly g ids
    exact ⟨registers.engine.trans ih.1, ih.2.registers registers⟩
  | addMember _ d h ih =>
    exact ⟨ih.1, ih.2.of_same (ih.2.own.of_framed (.addMember _ d h)) rfl (by simp)⟩
  | removeMember _ d h ih =>
    exact ⟨ih.1, ih.2.of_same (ih.2.own.of_framed (.removeMember _ d h)) rfl (by simp)⟩
  | recompile _ d ih => exact ⟨by simpa using ih.1, fun e => (ih.2 e).recompile d⟩
  | @recompileHandler g _ h ih =>
    refine ⟨?_, ih.2.recompileHandler h⟩
    cases found : g.handlers.get? h with
    | none => simpa only [DispatchGraph.recompileHandler, found] using ih.1
    | some handler => exact (recompileHandler_eq found).engine.trans ih.1
  | create _ made ih => exact ⟨(engine_create made).trans ih.1, ih.2.create made⟩
  | update _ h entry ih => exact ⟨(engine_update ..).trans ih.1, ih.2.update h entry⟩
  | rebind _ h reorder ih =>
    exact ⟨(Spares.rebind (k := h) _ h reorder).engine.trans ih.1, ih.2.rebind h reorder⟩
  | unbindAll _ h ih => exact ⟨(engine_unbindAll ..).trans ih.1, ih.2.unbindAll h⟩
  | drop _ h ih => exact ⟨ih.1, ih.2.drop h⟩

theorem Sourced.provided (sourced : g.Sourced) {d : Key .dispatcher} {dispatcher : Dispatcher}
    (found : g.dispatchers.get? d = some dispatcher) {program : Program}
    (holds : dispatcher.program = some program) :
    g.engine.compile program.unit.source program.unit.namespaces = .ok program.unit ∧
      program.Provided := by
  have made : MadeOf g.engine (fun _ => True) program :=
    (sourced d).made program (by rw [programOf, found]; exact holds)
  refine ⟨?_, made.provided⟩
  obtain ⟨handlers, -, compiled⟩ := made
  obtain ⟨made, -⟩ := ProgramSource.compile_ok_iff.1 compiled
  obtain ⟨source, namespaces, -⟩ := Engine.compile_ok_iff.1 made
  rw [source, namespaces]
  exact made

end DispatchGraph

namespace Project

open DispatchGraph

/-! ## Sessions -/

section

variable {engine : Engine} {g g' : DispatchGraph}

theorem grown_made {id : String} {entry : ConfigEntry} {made : Option (Key .handler)}
    (grown : Grown engine g) (h : Handler.kind.create id entry g = (made, g')) :
    Grown engine g' := by
  rcases Handler.create_cases h with ⟨-, rfl, -⟩ | ⟨created, -⟩
  · exact grown
  · exact grown.create created

theorem grown_retireAll (registry : Registry (Key .handler)) (grown : Grown engine g) :
    Grown engine (Registry.retireAll Handler.kind registry g) :=
  Registry.retireAll_keeps (I := fun _ (s : DispatchGraph) => Grown engine s)
    (fun h _ => (h.unbindAll _).drop _) grown

theorem grown_load (registry : Registry (Key .handler)) (documents : List (String × ConfigDocument))
    (grown : Grown engine g) :
    Grown engine (registry.load Handler.kind documents g).surroundings := by
  rw [Registry.load_quiet _ rfl]
  refine Grown.recompileEach _ ?_
  let start : Registry.Loading DispatchGraph (Key .handler) :=
    ⟨.empty, Registry.retireAll Handler.kind registry g, {}⟩
  exact Registry.loadFiles_keeps (I := fun _ (s : DispatchGraph) => Grown engine s) (l := start)
    (fun h made => grown_made h made) (fun h _ made => grown_made h made) documents
    (grown_retireAll registry grown)

theorem grown_sync (registry : Registry (Key .handler)) (file : String) (document : ConfigDocument)
    (grown : Grown engine g) :
    Grown engine (registry.sync Handler.kind file document g).surroundings :=
  Registry.sync_keeps (I := fun _ (s : DispatchGraph) => Grown engine s)
    (fun h _ _ _ _ => h.update _ _) (fun h _ => (h.unbindAll _).drop _)
    (fun h made => grown_made h made) (fun h _ made => (grown_made h made).recompileEach _) grown

variable {project : Project}

theorem Step.grown (step : Step) (grown : Grown engine project.graph) :
    Grown engine (step.perform project).graph := by
  cases step with
  | take update =>
    cases update with
    | everything settings handlers schedules =>
      exact grown_load _ handlers (grown.registerOnly settings.dispatchers)
    | handlers file document => exact grown_sync _ file document grown
    | schedules file document => exact grown
  | replace documents => exact grown_load _ documents grown
  | clear => exact grown_retireAll _ grown
  | update h entry => exact grown.update h entry
  | unbind h => exact grown.unbindAll h

/-- All through a session, the graph of a loaded project has grown. -/
theorem grown_session {root : String} {engine : Engine} {extend : Bool} {clock : WallClock}
    {disk : FileTree} {project : Project}
    (loaded : (load root engine extend clock).outcome? disk = some project)
    (events : List Event) :
    Grown (engineFor engine extend project.settings) (project.session events).graph := by
  have start : Grown (engineFor engine extend project.settings) project.graph := by
    obtain ⟨settings, handlers, schedules, -, rfl⟩ := load_iff.1 loaded
    exact Step.grown (.take (.everything settings handlers schedules)) .empty
  refine List.foldlRecOn (motive := fun project : Project =>
    Grown (engineFor engine extend _) project.graph) events _ start fun project grown event _ => ?_
  rcases event.others project with ⟨op, rfl⟩ | ⟨-, -, graph⟩
  · rw [Event.perform, Operation.perform_eq]
    cases op.step? project with
    | none => exact grown
    | some step => exact step.grown grown
  · exact graph ▸ grown

end

/-! ## Routines are there -/

/-- Compiled code has all routines that it runs. A block of a compiled unit never comes to a call
without routine, whatever such a call would do, and does not fail for want of one. Nor does a
dispatcher, whatever was done to the graph that it is in: its unit was compiled, and has the
block of each of its entries. The graphs of projects are such graphs. -/
theorem no_routine_is_missed :
    (∀ {engine : Engine} {source : String} {namespaces : List String} {unit : CompiledUnit},
      engine.compile source namespaces = .ok unit →
      ∀ {block : String}, unit.contains block → ∀ context,
        (∀ missing, unit.invoke block context = unit.invokeIn missing block context) ∧
          ∀ name, (unit.invoke block context).1 ≠ .error (.blockNotFound name)) ∧
    (∀ {engine : Engine} {g : DispatchGraph}, Grown engine g →
      ∀ {d : Key .dispatcher} {dispatcher : Dispatcher}, g.dispatchers.get? d = some dispatcher →
        (∀ program, dispatcher.program = some program →
          engine.compile program.unit.source program.unit.namespaces = .ok program.unit ∧
          ∀ entry ∈ program.entries, program.unit.contains entry.block) ∧
        ∀ context failure, (dispatcher.run context).1 = .error failure →
          ∃ handler error, failure = .handlerFailed dispatcher.id handler error ∧
            ∀ name, error ≠ .blockNotFound name) ∧
    ∀ {root : String} {engine : Engine} {extend : Bool} {clock : WallClock} {disk : FileTree}
      {project : Project}, (load root engine extend clock).outcome? disk = some project →
      ∀ events,
        Grown (engineFor engine extend project.settings) (project.session events).graph := by
  refine ⟨fun made block known context => ?_, fun grown d dispatcher found => ?_,
    fun loaded events => grown_session loaded events⟩
  · exact CompiledUnit.invoke_finds (Engine.resolved_of_compile made) known context
  · obtain ⟨rfl, sourced⟩ := grown.sourced
    have provided {program : Program} (holds : dispatcher.program = some program) :=
      sourced.provided found holds
    refine ⟨fun program holds => ?_, fun context failure failed => ?_⟩
    · obtain ⟨compiled, provided⟩ := provided holds
      exact ⟨compiled, provided.there⟩
    · exact Dispatcher.run_provided (fun program holds => (provided holds).2) failed

/-- A routine that calls itself, and a handler that left but whose routine still runs. -/
theorem no_routine_is_missed_echo :
    (∃ unit, Engine.core.compile "call main" [] = .ok unit ∧ unit.contains "main" ∧
      ∀ name, (unit.invoke "main" {}).1 ≠ .error (.blockNotFound name)) ∧
    ∃ t, (Trace.load "/p" StandardActions.engine false (.standing 0)).outcome? trio = some t ∧
      ∃ dispatcher program,
        (t.project.session [.operation (.unbind ⟨2⟩)]).graph.dispatchers.get? ⟨0⟩ =
          some dispatcher ∧ dispatcher.program = some program ∧
        ∃ entry ∈ program.entries, entry.owner = "c" ∧ program.unit.contains entry.block := by
  constructor
  · have compiles : ((Engine.core.compile "call main" []).toOption.any
        fun unit => unit.contains "main") = true := by decide +kernel
    obtain ⟨unit, made, known⟩ := (Option.any_eq_true _ _).1 compiles
    have made := toOption_eq_some.1 made
    exact ⟨unit, made, known, (no_routine_is_missed.1 made known {}).2⟩
  · obtain ⟨t, loaded, -, -, -, -, -, stays, -⟩ := trio_parts
    have loaded' : (load "/p" StandardActions.engine false (.standing 0)).outcome? trio =
        some t.project := by
      rw [← Trace.project_load, Disk.outcome?_map, loaded, Option.map_some]
    obtain ⟨program, holds, runs⟩ := (Option.any_eq_true _ _).1 stays
    obtain ⟨entry, mem, own⟩ := List.any_eq_true.1 runs
    obtain ⟨dispatcher, found, holds⟩ := Option.bind_eq_some_iff.1 holds
    have grown := no_routine_is_missed.2.2 loaded' [.operation (.unbind ⟨2⟩)]
    have there := (no_routine_is_missed.2.1 grown found).1 program holds
    exact ⟨t, loaded, dispatcher, program, found, holds, entry, mem, by simpa using own,
      there.2 entry mem⟩

end Project
end ScriptHost
