import ScriptHost.Proofs.Dispatch.Handling
/-!
# What operations on handlers leave alone

Whatever is done to handlers, the engine stays; and of a handler that is not meant itself, all
stays but perhaps the dispatchers that it is bound to. That needs nothing of the graph, which
may be out of order.

**Results.**
* `Spares.create`, `Spares.update`, `Spares.rebind`, `Spares.unbindAll`: what the operations leave
  alone.
* `create_follows`, `update_follows`: what a handler is made, or made into, before dispatchers are
  concerned; what follows spares all handlers.
* `engine_create`, `engine_update`, `engine_unbindAll`: the engine stays.
-/
namespace ScriptHost

/-- The program that a handler has with a configuration, if its source compiles then. -/
def Handler.programWith (handler : Handler) (engine : Engine) (config : HandlerConfig) :
    Option Program :=
  ({ handler with config }.source.compile engine).toOption

namespace DispatchGraph

variable {g g' g'' : DispatchGraph} {h k : Key .handler} {handler : Handler} {id : String}
  {entry : ConfigEntry} {config : HandlerConfig}

/-- All of a handler stays as it is but the dispatchers that it is bound to. -/
structure Spares (k : Key .handler) (g g' : DispatchGraph) : Prop where
  engine : g'.engine = g.engine
  handler : ∀ handler, g.handlers.get? k = some handler →
    ∃ bound, g'.handlers.get? k = some { handler with bound }

namespace Spares

theorem refl (k : Key .handler) (g : DispatchGraph) : Spares k g g :=
  ⟨rfl, fun handler found => ⟨handler.bound, found⟩⟩

theorem trans (first : Spares k g g') (second : Spares k g' g'') : Spares k g g'' where
  engine := second.engine.trans first.engine
  handler handler found := by
    obtain ⟨bound, found⟩ := first.handler handler found
    exact second.handler { handler with bound } found

theorem of_framed (framed : Framed g g') : Spares k g g' :=
  ⟨framed.engine, fun handler found => ⟨handler.bound, framed.handlers ▸ found⟩⟩

theorem of_retouched (touched : Retouched h handler g g') (other : h ≠ k) : Spares k g g' := by
  refine ⟨touched.engine, fun handler found => ⟨handler.bound, ?_⟩⟩
  rw [touched.handlers, if_neg (Ne.symm other), found]

theorem setBound (g : DispatchGraph) (h : Key .handler) (bound : List (Key .dispatcher)) :
    Spares k g (g.setBound h bound) := by
  refine ⟨rfl, fun handler found => ?_⟩
  by_cases same : k = h
  · exact ⟨bound, by simp [DispatchGraph.setBound, same ▸ found, same]⟩
  · exact ⟨handler.bound, by simp [DispatchGraph.setBound, found, same]⟩

theorem rebind (g : DispatchGraph) (h : Key .handler) (reorder : Bool) :
    Spares k g (g.rebind h reorder) := by
  unfold DispatchGraph.rebind
  split
  · exact .refl k g
  · exact (of_framed ((Framed.leaveUnnamed _ g).trans (.joinNamed ..))).trans (setBound ..)

theorem unbindAll (g : DispatchGraph) (h : Key .handler) : Spares k g (g.unbindAll h) := by
  unfold DispatchGraph.unbindAll
  split
  · exact .refl k g
  · exact (setBound g h []).trans (of_framed (.leaveEach ..))

end Spares

theorem update_of_error {problem : ConfigError} (found : g.handlers.get? k = some handler)
    (bad : HandlerConfig.ofEntry handler.id entry = .error problem) :
    g.update k entry = (g, {}) := by
  simp only [update, found, bad]

theorem update_follows (found : g.handlers.get? h = some handler)
    (good : HandlerConfig.ofEntry handler.id entry = .ok config) :
    ∃ middle, Retouched h { handler with
        entry, config
        program :=
          if (HandlerChanges.ofKeys (handler.entry.changedKeys entry)).recompile
            then (handler.programWith g.engine config).or handler.program
            else handler.program } g middle ∧
      ∀ k, Spares k middle (g.update h entry).1 := by
  unfold update
  simp only [found, good]
  generalize HandlerChanges.ofKeys (handler.entry.changedKeys entry) = changes
  have given : Retouched h { handler with entry, config } g
      { g with handlers := g.handlers.modify h fun handler => { handler with entry, config } } :=
    Retouched.modify (f := fun handler => { handler with entry, config }) found
  generalize ({ g with handlers := _ } : DispatchGraph) = g₁ at *
  have found₁ : g₁.handlers.get? h = some { handler with entry, config } := by
    rw [given.handlers, if_pos rfl]
  refine ⟨(if changes.recompile then g₁.recompileHandler h else (g₁, false)).1, ?_, fun k => ?_⟩
  · split
    · have compiled := recompileHandler_eq found₁
      rw [given.engine] at compiled
      exact given.trans compiled
    · exact given
  · generalize (if changes.recompile then _ else _ : DispatchGraph × Bool) = r
    split
    · exact .rebind ..
    · split
      · exact .of_framed (.recompileEach ..)
      · exact .refl ..

theorem Spares.update (other : h ≠ k) (g : DispatchGraph) (entry : ConfigEntry) :
    Spares k g (g.update h entry).1 := by
  cases found : g.handlers.get? h with
  | none => simpa only [DispatchGraph.update, found] using Spares.refl k g
  | some handler =>
    cases read : HandlerConfig.ofEntry handler.id entry with
    | error problem => simpa only [update_of_error found read] using Spares.refl k g
    | ok config =>
      obtain ⟨middle, touched, follows⟩ := update_follows found read
      exact (of_retouched touched other).trans (follows k)

theorem create_follows (made : g.create id entry = .ok g') :
    ∃ config middle, HandlerConfig.ofEntry id entry = .ok config ∧
      Retouched g.handlers.nextKey { id, entry, config
                                     program := (({ id, entry, config } : Handler).source.compile
                                       g.engine).toOption } g middle ∧
      ∀ k, Spares k middle g' := by
  simp only [create, bind_eq_ok, pure_eq_ok] at made
  obtain ⟨config, read, rfl⟩ := made
  have added : Retouched g.handlers.nextKey { id, entry, config } g
      { g with handlers := g.handlers.add { id, entry, config } } :=
    ⟨rfl, rfl, rfl, Store.get?_add _ _⟩
  have found := added.handlers g.handlers.nextKey
  rw [if_pos rfl] at found
  have compiled := recompileHandler_eq found
  rw [Option.or_none] at compiled
  exact ⟨config, _, read, added.trans compiled, fun k => .rebind ..⟩

theorem Spares.create (made : g.create id entry = .ok g') : Spares k g g' := by
  obtain ⟨config, middle, -, touched, follows⟩ := create_follows made
  refine Spares.trans ⟨touched.engine, fun handler there => ⟨handler.bound, ?_⟩⟩ (follows k)
  have other : k ≠ g.handlers.nextKey := by
    rintro rfl
    rw [Store.get?_nextKey] at there
    cases there
  rw [touched.handlers, if_neg other, there]

/-! ## The engine -/

theorem engine_unbindAll (g : DispatchGraph) (k : Key .handler) :
    (g.unbindAll k).engine = g.engine :=
  (Spares.unbindAll (k := k) g k).engine

theorem engine_create (made : g.create id entry = .ok g') : g'.engine = g.engine :=
  (Spares.create (k := g.handlers.nextKey) made).engine

theorem engine_update (g : DispatchGraph) (k : Key .handler) (entry : ConfigEntry) :
    (g.update k entry).1.engine = g.engine := by
  cases found : g.handlers.get? k with
  | none => simp only [update, found]
  | some handler =>
    cases read : HandlerConfig.ofEntry handler.id entry with
    | error problem => rw [update_of_error found read]
    | ok config =>
      obtain ⟨middle, touched, follows⟩ := update_follows found read
      exact (follows k).engine.trans touched.engine

end DispatchGraph
end ScriptHost
