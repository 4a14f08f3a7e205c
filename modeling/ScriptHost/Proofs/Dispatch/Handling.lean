import ScriptHost.Proofs.Config.Changes
import ScriptHost.Proofs.Dispatch.Rebinding
/-!
# What becomes of a handler

Each operation on a handler is told here as a whole: what the handler becomes, what becomes of
the dispatchers, and whose programs are fresh afterwards.

**What is said.** `Evolves`: the handler moves as `Moves` says, and every program that is
replaced is replaced by one of members. `Becomes`: moreover the graph stays linked, and the
handler is `Settled`: it is bound to registered dispatchers, has a program of its own and the
configuration of its entry.

**Results.**
* `create_becomes`, `update_becomes`, `unbindAll_evolves`, `retire_evolves`: one for each
  operation. All but `create` leave no program behind that was fresh before; `create` leaves
  those of the dispatchers that the new handler is bound to, which `fresh_recompileBound` makes
  good.
-/
namespace ScriptHost.DispatchGraph

variable {g g' g'' : DispatchGraph} {d : Key .dispatcher} {k : Key .handler} {P : String → Prop}

/-! ## One handler in place of another -/

/-- A handler is put in place of another; nothing else changes. -/
structure Retouched (k : Key .handler) (handler : Handler) (g g' : DispatchGraph) : Prop where
  engine : g'.engine = g.engine
  registry : g'.registry = g.registry
  dispatchers : g'.dispatchers = g.dispatchers
  handlers : ∀ h, g'.handlers.get? h = if h = k then some handler else g.handlers.get? h

namespace Retouched

variable {handler handler' : Handler}

theorem trans (first : Retouched k handler g g') (second : Retouched k handler' g' g'') :
    Retouched k handler' g g'' where
  engine := second.engine.trans first.engine
  registry := second.registry.trans first.registry
  dispatchers := second.dispatchers.trans first.dispatchers
  handlers h := by
    rw [second.handlers, first.handlers]
    split <;> rfl

theorem refl (found : g.handlers.get? k = some handler) : Retouched k handler g g := by
  refine ⟨rfl, rfl, rfl, fun h => ?_⟩
  split
  · rename_i same
    rw [same, found]
  · rfl

theorem modify {f : Handler → Handler} (found : g.handlers.get? k = some handler) :
    Retouched k (f handler) g { g with handlers := g.handlers.modify k f } := by
  refine ⟨rfl, rfl, rfl, fun h => ?_⟩
  rw [Store.get?_modify]
  split
  · rename_i same
    rw [same, found, Option.map_some]
  · rfl

theorem setBound (found : g.handlers.get? k = some handler) (bound : List (Key .dispatcher)) :
    Retouched k { handler with bound } g (g.setBound k bound) :=
  modify (f := fun handler => { handler with bound }) found

theorem membersOf (h : Retouched k handler g g') (d : Key .dispatcher) :
    g'.membersOf d = g.membersOf d := by
  rw [DispatchGraph.membersOf, DispatchGraph.membersOf, h.dispatchers]

theorem idOf (h : Retouched k handler g g') (d : Key .dispatcher) : g'.idOf d = g.idOf d := by
  rw [DispatchGraph.idOf, DispatchGraph.idOf, h.dispatchers]

theorem programOf (h : Retouched k handler g g') (d : Key .dispatcher) :
    g'.programOf d = g.programOf d := by
  rw [DispatchGraph.programOf, DispatchGraph.programOf, h.dispatchers]

/-- The programs of dispatchers that the handler is no member of stay fresh. -/
theorem fresh_of_not_mem (h : Retouched k handler g g') (outside : k ∉ g.membersOf d)
    (fresh : g.Fresh d) : g'.Fresh d := by
  refine fresh.of_same h.engine (h.idOf d) (h.programOf d)
    (sourceOf_congr (h.membersOf d) fun j mem => ?_)
  rw [h.handlers, if_neg fun same : j = k => outside (same ▸ mem)]

/-- All programs stay fresh if the handler contributes what the other did. -/
theorem fresh_of_same (h : Retouched k handler g g') (found : g.handlers.get? k = some handler')
    (same : handler.contribution = handler'.contribution) (fresh : g.Fresh d) : g'.Fresh d := by
  refine fresh.of_same h.engine (h.idOf d) (h.programOf d)
    (sourceOf_congr (h.membersOf d) fun j mem => ?_)
  rw [h.handlers]
  split
  · rename_i isK
    rw [isK, found, Option.map_some, Option.map_some, same]
  · rfl

theorem allOwn (h : Retouched k handler g g') (own : g.AllOwn) (new : handler.HoldsOwn g.engine) :
    g'.AllOwn := by
  intro j other found
  rw [h.engine]
  rw [h.handlers] at found
  split at found
  · cases found
    exact new
  · exact own j other found

theorem among (h : Retouched k handler g g') (among : g.Among d P) (own : handler.HoldsOwn g.engine)
    (ownId : k ∈ g.membersOf d → P handler.id) : g'.Among d P := by
  refine among.of_same (h.allOwn among.own own) h.engine (h.programOf d) fun id mem => ?_
  obtain ⟨j, member, other, found, rfl⟩ := mem_memberIds.1 mem
  rw [h.membersOf] at member
  rw [h.handlers] at found
  split at found
  · rename_i isK
    cases found
    exact ownId (isK ▸ member)
  · exact among.members _ (mem_memberIds.2 ⟨j, member, other, found, rfl⟩)

/-- A handler whose dispatchers have it as a member moves nowhere. -/
theorem moves (h : Retouched k handler g g')
    (inside : ∀ d, k ∈ g.membersOf d ↔ d ∈ handler.bound) : Moves k (some handler) g g' where
  engine := h.engine
  registry := h.registry
  ids := h.idOf
  handlers := h.handlers
  members d := by
    rw [h.membersOf, placed_eq_self]
    simpa [bindsTo] using inside d

theorem linked (h : Retouched k handler g g') (linked : g.Linked)
    (found : g.handlers.get? k = some handler') (id : handler.id = handler'.id)
    (bound : handler.bound = handler'.bound) : g'.Linked := by
  have moves := h.moves (bound ▸ linked.mirrored.mem_bound found)
  refine moves.linked linked fun _ eq => ?_
  cases eq
  refine ⟨bound ▸ linked.bound_nodup found, fun ne other same => ne ?_⟩
  exact linked.distinct other found (same.trans id)

end Retouched

/-! ## A handler on the move -/

/-- A handler moves, and programs are replaced only by such as are made of the members before
and after. -/
structure Evolves (k : Key .handler) (after : Option Handler) (g g' : DispatchGraph) : Prop
    extends Moves k after g g' where
  among : ∀ {d P}, g.Among d P → (∀ id ∈ g'.memberIds d, P id) → g'.Among d P

theorem Evolves.after_retouched {handler : Handler} {after : Option Handler}
    (first : Retouched k handler g g') (second : Evolves k after g' g'')
    (own : handler.HoldsOwn g.engine)
    (sameId : ∀ d, k ∈ g.membersOf d → ∃ other, g.handlers.get? k = some other ∧
      other.id = handler.id) : Evolves k after g g'' where
  engine := second.engine.trans first.engine
  registry := second.registry.trans first.registry
  ids d := (second.ids d).trans (first.idOf d)
  handlers h := by
    rw [second.handlers, first.handlers]
    split <;> rfl
  members d := by rw [second.members, first.membersOf]
  among {d P} among members := by
    refine second.among (first.among among own fun mem => ?_) members
    obtain ⟨other, found, id⟩ := sameId d mem
    exact id ▸ among.members _ (mem_memberIds.2 ⟨k, mem, other, found, rfl⟩)

theorem evolves_of_retouched {handler handler' : Handler} (h : Retouched k handler g g')
    (linked : g.Linked) (found : g.handlers.get? k = some handler')
    (own : handler.HoldsOwn g.engine) (id : handler.id = handler'.id)
    (bound : handler.bound = handler'.bound) : Evolves k (some handler) g g' where
  toMoves := h.moves (bound ▸ linked.mirrored.mem_bound found)
  among among _ := h.among among own fun mem =>
    id ▸ among.members _ (mem_memberIds.2 ⟨k, mem, handler', found, rfl⟩)

theorem Evolves.recompileEach {after : Option Handler} (h : Evolves k after g g')
    (keys : List (Key .dispatcher)) : Evolves k after g (g'.recompileEach keys) := by
  have framed := Framed.recompileEach keys g'
  refine ⟨⟨framed.engine.trans h.engine, framed.registry.trans h.registry,
    fun d => (framed.ids d).trans (h.ids d), fun j => framed.handlers ▸ h.handlers j,
      fun d => ?_⟩, ?_⟩
  · rw [membersOf_recompileEach, h.members]
  · intro d P among members
    refine (h.among among ?_).recompileEach keys
    rwa [memberIds_of_framed framed (membersOf_recompileEach ..)] at members

/-! ## Rebinding -/

/-- Leaving what is not named prepares for joining what is. -/
theorem joining_leaveUnnamed {handler : Handler} (linked : g.Linked)
    (found : g.handlers.get? k = some handler)
    (known : ∀ d ∈ handler.bound, ∃ id, g.registry.get? id = some d) (reorder : Bool) :
    Joining k (leaveUnnamed k handler.config.bind reorder g handler.bound).1
      (leaveUnnamed k handler.config.bind reorder g handler.bound).2 := by
  have framed := @Framed.leaveUnnamed k handler.config.bind reorder handler.bound g
  obtain ⟨kept, members⟩ :=
    @leaveUnnamed_members k handler.config.bind reorder handler.bound g linked.living
  constructor
  · intro id d registered
    rw [framed.ids]
    exact linked.registered (framed.registry ▸ registered)
  · intro d h mem
    rw [framed.handlers]
    rw [members] at mem
    split at mem
    · exact linked.living d h (List.mem_filter.1 mem).1
    · exact linked.living d h mem
  · rw [framed.handlers]
    simp [Store.contains, found]
  · intro d
    rw [members, kept, List.mem_filter]
    split
    · rename_i leaves
      simp [leaves]
    · rename_i stays
      rw [linked.mirrored.mem_bound found]
      grind
  · intro d mem
    rw [framed.registry]
    exact known d (List.mem_filter.1 (kept ▸ mem)).1
  · rw [kept]
    exact (linked.bound_nodup found).filter _

/-- A handler that is bound anew is bound to exactly the registered dispatchers that its
configuration names. -/
theorem rebind_evolves {handler : Handler} (linked : g.Linked)
    (found : g.handlers.get? k = some handler)
    (known : ∀ d ∈ handler.bound, ∃ id, g.registry.get? id = some d) (reorder : Bool) :
    ∃ bound, bound.Nodup ∧
      (∀ d, d ∈ bound ↔ ∃ id ∈ handler.config.bind, g.registry.get? id = some d) ∧
      Evolves k (some { handler with bound }) g (g.rebind k reorder) ∧
      ∀ d, (g.Fresh d ∨ (reorder ∧ d ∈ handler.bound)) → (reorder ∨ d ∉ bound) →
        (g.rebind k reorder).Fresh d := by
  have joining := joining_leaveUnnamed linked found known reorder
  have left := @Framed.leaveUnnamed k handler.config.bind reorder handler.bound g
  obtain ⟨kept, stayed⟩ :=
    @leaveUnnamed_members k handler.config.bind reorder handler.bound g linked.living
  have fresh (d : Key .dispatcher) :=
    @Fresh.leaveUnnamed d k handler.config.bind reorder handler.bound g
  have among {d P} := @Among.leaveUnnamed d k P handler.config.bind reorder handler.bound g
  have eq : g.rebind k reorder =
      let r := joinNamed k reorder (leaveUnnamed k handler.config.bind reorder g handler.bound).1
        (leaveUnnamed k handler.config.bind reorder g handler.bound).2 handler.config.bind
      r.1.setBound k r.2 := by
    simp only [rebind, found]
  rw [eq]
  generalize leaveUnnamed k handler.config.bind reorder g handler.bound = first at *
  have joined := @Framed.joinNamed k reorder handler.config.bind first.1 first.2
  obtain ⟨nodup, mem_iff, came⟩ :=
    @Joining.joinNamed_members k reorder handler.config.bind _ _ joining
  have fresh' {d} := @Fresh.joinNamed d k reorder handler.config.bind _ _ joining
  have among' {d P} := @Among.joinNamed d k P reorder handler.config.bind _ _ joining
  generalize joinNamed k reorder first.1 first.2 handler.config.bind = second at *
  have framed := left.trans joined
  have found' : second.1.handlers.get? k = some handler := by rw [framed.handlers, found]
  have touched := Retouched.setBound found' second.2
  have inside := linked.mirrored.mem_bound found
  have named {d : Key .dispatcher} : d ∈ second.2 ↔
      ∃ id ∈ handler.config.bind, g.registry.get? id = some d := by
    rw [mem_iff, left.registry]
    refine ⟨fun h => h.elim (fun mem => ?_) id, .inr⟩
    rw [kept, List.mem_filter] at mem
    obtain ⟨id, registered⟩ := known d mem.1
    exact ⟨id, by simpa [isNamed, linked.registered registered] using mem.2, registered⟩
  have named_of_mem {d : Key .dispatcher} (mem : d ∈ second.2) :
      g.isNamed handler.config.bind d := by
    obtain ⟨id, mem, registered⟩ := named.1 mem
    simpa [isNamed, linked.registered registered] using mem
  refine ⟨second.2, nodup, fun d => named, ⟨⟨?_, ?_, fun d => ?_, fun h => ?_, fun d => ?_⟩, ?_⟩,
    fun d isFresh asked => ?_⟩
  · exact touched.engine.trans framed.engine
  · exact touched.registry.trans framed.registry
  · exact (touched.idOf d).trans (framed.ids d)
  · rw [touched.handlers, framed.handlers]
  · rw [touched.membersOf, came, stayed, placed]
    have keeps : d ∈ first.2 ↔ d ∈ handler.bound ∧ g.isNamed handler.config.bind d := by
      rw [kept, List.mem_filter]
    by_cases mem : d ∈ second.2
    · simp [bindsTo, mem, keeps, named_of_mem mem, inside]
    · have notKept : d ∉ first.2 := fun old => mem ((mem_iff d).2 (.inl old))
      by_cases old : d ∈ handler.bound
      · have unnamed : g.isNamed handler.config.bind d = false := by
          simpa [keeps, old] using notKept
        simp [bindsTo, mem, old, unnamed]
      · simp [bindsTo, mem, old, filter_of_not_mem ((inside d).not.2 old)]
  · intro d P amongBefore members
    have ownId (mem : k ∈ second.1.membersOf d) : P handler.id := by
      refine members _ (mem_memberIds.2 ⟨k, ?_, { handler with bound := second.2 }, ?_, rfl⟩)
      · rwa [touched.membersOf]
      · rw [touched.handlers, if_pos rfl]
    have own : ({ handler with bound := second.2 }).HoldsOwn second.1.engine :=
      framed.engine ▸ (amongBefore.own k handler found).congr rfl rfl
    refine touched.among (among' (among amongBefore) fun mem new other found => ?_) own ownId
    rw [left.handlers] at found
    cases found.symm.trans ‹g.handlers.get? k = some handler›
    refine ownId ?_
    rw [came, if_pos ⟨mem, new⟩]
    exact List.mem_append_right _ (.head _)
  · refine touched.fresh_of_same found' rfl
      (fresh' (fresh d (isFresh.imp_right fun h => ⟨h.2, .inl h.1⟩)) ?_)
    exact asked.imp_right fun outside mem => absurd mem outside

/-! ## What is known of every handler -/

/-- A handler is bound to registered dispatchers, has the program of a source of its own, and
the configuration that its entry gives it. -/
structure Settled (g : DispatchGraph) (handler : Handler) : Prop where
  known : ∀ d ∈ handler.bound, ∃ id, g.registry.get? id = some d
  own : handler.HoldsOwn g.engine
  configured : HandlerConfig.ofEntry handler.id handler.entry = .ok handler.config

/-- A handler is bound to exactly the registered dispatchers that its configuration names. -/
def BoundAsNamed (g : DispatchGraph) (handler : Handler) : Prop :=
  ∀ d, d ∈ handler.bound ↔ ∃ id ∈ handler.config.bind, g.registry.get? id = some d

theorem BoundAsNamed.known {handler : Handler} (h : g.BoundAsNamed handler) :
    ∀ d ∈ handler.bound, ∃ id, g.registry.get? id = some d := by
  intro d mem
  obtain ⟨id, -, registered⟩ := (h d).1 mem
  exact ⟨id, registered⟩

theorem BoundAsNamed.mem_bound {handler : Handler} {name : String} (h : g.BoundAsNamed handler)
    (linked : g.Linked) (registered : g.registry.get? name = some d) :
    d ∈ handler.bound ↔ name ∈ handler.config.bind := by
  rw [h d]
  refine ⟨fun ⟨other, mem, known⟩ => ?_, fun mem => ⟨name, mem, registered⟩⟩
  have same := (linked.registered known).symm.trans (linked.registered registered)
  exact Option.some.inj same ▸ mem

/-- A handler becomes another, and the graph is in order. -/
structure Becomes (k : Key .handler) (handler : Handler) (g g' : DispatchGraph) : Prop
    extends Evolves k (some handler) g g' where
  linked : g'.Linked
  settled : g'.Settled handler

theorem recompileHandler_eq {handler : Handler} (found : g.handlers.get? k = some handler) :
    Retouched k { handler with program :=
        (handler.source.compile g.engine).toOption.or handler.program } g
      (g.recompileHandler k).1 := by
  unfold recompileHandler
  simp only [found]
  cases made : handler.source.compile g.engine with
  | error refused => exact .refl found
  | ok program =>
    exact Retouched.modify (f := fun handler => { handler with program := some program }) found

/-- Compiling a handler anew may give it another program of its own, and changes nothing else. -/
theorem recompileHandler_retouched {handler : Handler} (found : g.handlers.get? k = some handler)
    (own : handler.HoldsOwn g.engine) :
    ∃ program, ({ handler with program }).HoldsOwn g.engine ∧
      Retouched k { handler with program } g (g.recompileHandler k).1 ∧
      ((g.recompileHandler k).2 = false → program = handler.program) := by
  refine ⟨_, ?_, recompileHandler_eq found, ?_⟩
  · cases made : handler.source.compile g.engine with
    | error refused => exact own
    | ok program =>
      intro p holds
      cases holds
      exact ⟨handler.config, made⟩
  · unfold recompileHandler
    simp only [found]
    cases handler.source.compile g.engine with
    | error refused => exact fun _ => rfl
    | ok program => simp

/-! ## Creating -/

/-- A handler that is not bound to anything takes a place that nothing refers to. -/
theorem Retouched.linked_new {handler : Handler} (h : Retouched k handler g g') (linked : g.Linked)
    (absent : g.handlers.get? k = none) (bound : handler.bound = [])
    (unused : ∀ {j other}, g.handlers.get? j = some other → other.id ≠ handler.id) : g'.Linked := by
  have moves := h.moves fun d => by simp [bound, linked.mirrored.not_mem absent d]
  refine moves.linked linked fun _ eq => ?_
  cases eq
  exact ⟨bound ▸ .nil, fun _ other => unused other⟩

/-- A new handler is bound to the registered dispatchers that it names; the programs of all
others stay fresh. -/
theorem create_becomes {id : String} {entry : ConfigEntry} (linked : g.Linked)
    (unused : ∀ {h other}, g.handlers.get? h = some other → other.id ≠ id)
    (made : g.create id entry = .ok g') :
    ∃ handler, handler.id = id ∧ Becomes g.handlers.nextKey handler g g' ∧ g'.BoundAsNamed handler ∧
      ∀ d, d ∉ handler.bound → g.Fresh d → g'.Fresh d := by
  simp only [create, bind_eq_ok, pure_eq_ok] at made
  obtain ⟨config, configured, rfl⟩ := made
  have absent := Store.get?_nextKey g.handlers
  have added : Retouched g.handlers.nextKey { id, entry, config } g
      { g with handlers := g.handlers.add { id, entry, config } } :=
    ⟨rfl, rfl, rfl, Store.get?_add _ _⟩
  have linked₁ := added.linked_new linked absent rfl unused
  generalize g.handlers.nextKey = k at *
  generalize ({ g with handlers := g.handlers.add { id, entry, config } } : DispatchGraph) = g₁ at *
  have found₁ : g₁.handlers.get? k = some { id, entry, config } := by
    rw [added.handlers, if_pos rfl]
  obtain ⟨program, own, compiled, -⟩ :=
    recompileHandler_retouched found₁ fun p holds => by cases holds
  have linked₂ := compiled.linked linked₁ found₁ rfl rfl
  have touched := added.trans compiled
  generalize (g₁.recompileHandler k).1 = g₂ at *
  have found₂ : g₂.handlers.get? k = some { id, entry, config, program } := by
    rw [touched.handlers, if_pos rfl]
  obtain ⟨bound, nodup, named, evolves, fresh⟩ := rebind_evolves linked₂ found₂ (by simp) false
  have outside := linked.mirrored.not_mem absent
  have asNamed : (g₂.rebind k false).BoundAsNamed { id, entry, config, bound, program } := by
    intro d
    rw [evolves.registry]
    exact named d
  refine ⟨{ id, entry, config, bound, program }, rfl,
    ⟨evolves.after_retouched touched (added.engine ▸ own) fun d mem => absurd mem (outside d), ?_,
      ?_⟩, asNamed,
    fun d apart isFresh => ?_⟩
  · refine evolves.toMoves.linked linked₂ fun _ eq => ?_
    cases eq
    refine ⟨nodup, fun ne other => ?_⟩
    rw [touched.handlers, if_neg ne] at other
    exact unused other
  · have engine : (g₂.rebind k false).engine = g₁.engine := evolves.engine.trans compiled.engine
    exact ⟨asNamed.known, engine ▸ own.congr rfl rfl, configured⟩
  · exact fresh d (.inl (touched.fresh_of_not_mem (outside d) isFresh)) (.inr apart)

/-- Afterwards all programs are fresh again if the programs of the handler's dispatchers are
replaced. -/
theorem fresh_recompileBound {handler : Handler} (found : g.handlers.get? k = some handler)
    (others : d ∉ handler.bound → g.Fresh d) : (g.recompileBound k).Fresh d := by
  rw [recompileBound, boundOf, found]
  by_cases mem : d ∈ handler.bound
  · exact fresh_recompileEach mem g
  · exact (others mem).recompileEach _

/-! ## Leaving all -/

/-- What is left of a handler's place in the graph when it left all its dispatchers. -/
theorem Mirrored.moves_unbindAll {handler : Handler} (mirrored : g.Mirrored)
    (found : g.handlers.get? k = some handler) :
    Moves k (some { handler with bound := [] }) g (g.unbindAll k) := by
  have eq : g.unbindAll k = handler.bound.foldl (leave k) (g.setBound k []) := by
    simp only [unbindAll, found]
  have touched := Retouched.setBound found []
  rw [eq]
  generalize g.setBound k [] = g₁ at *
  have living : g₁.Living := by
    intro d h mem
    rw [touched.membersOf] at mem
    have alive := mirrored.living d h mem
    simp only [Store.contains, touched.handlers] at alive ⊢
    split
    · rfl
    · exact alive
  have framed := Framed.leaveEach k handler.bound g₁
  refine ⟨framed.engine.trans touched.engine, framed.registry.trans touched.registry,
    fun d => (framed.ids d).trans (touched.idOf d), fun h => framed.handlers ▸ touched.handlers h,
    fun d => ?_⟩
  rw [membersOf_leaveEach k handler.bound living, touched.membersOf, placed]
  by_cases mem : d ∈ handler.bound
  · simp [bindsTo, mem]
  · simp [bindsTo, mem, filter_of_not_mem ((mirrored.mem_bound found d).not.2 mem)]

/-- A handler that left all its dispatchers can be let go. -/
theorem Moves.drop {handler : Handler}
    (unbound : Moves k (some { handler with bound := [] }) g g') :
    Moves k none g (g'.drop k) := by
  refine ⟨unbound.engine, unbound.registry, unbound.ids, fun h => ?_, unbound.members⟩
  rw [DispatchGraph.drop, Store.get?_erase, unbound.handlers]
  split <;> rfl

/-- A handler that leaves all its dispatchers stays what it is otherwise. -/
theorem unbindAll_evolves {handler : Handler} (linked : g.Linked)
    (found : g.handlers.get? k = some handler) :
    Evolves k (some { handler with bound := [] }) g (g.unbindAll k) ∧ (g.unbindAll k).Linked ∧
      ∀ d, g.Fresh d → (g.unbindAll k).Fresh d := by
  have moves := linked.mirrored.moves_unbindAll found
  have eq : g.unbindAll k = handler.bound.foldl (leave k) (g.setBound k []) := by
    simp only [unbindAll, found]
  have touched := Retouched.setBound found []
  rw [eq] at moves ⊢
  refine ⟨⟨moves, fun among _ => ?_⟩, ?_, fun d fresh => ?_⟩
  · have own : ({ handler with bound := [] }).HoldsOwn g.engine :=
      (among.own k handler found).congr rfl rfl
    refine (touched.among among own fun mem => ?_).leaveEach k handler.bound
    exact among.members _ (mem_memberIds.2 ⟨k, mem, handler, found, rfl⟩)
  · refine moves.linked linked fun _ eq => ?_
    cases eq
    exact ⟨.nil, fun ne other same => ne (linked.distinct other found same)⟩
  · exact Fresh.leaveEach k handler.bound (.inl (touched.fresh_of_same found rfl fresh))

/-- A handler that is retired leaves all its dispatchers and is gone. -/
theorem retire_evolves {handler : Handler} (linked : g.Linked)
    (found : g.handlers.get? k = some handler) :
    Evolves k none g ((g.unbindAll k).drop k) ∧ ((g.unbindAll k).drop k).Linked ∧
      ∀ d, g.Fresh d → ((g.unbindAll k).drop k).Fresh d := by
  obtain ⟨unbound, -, fresh⟩ := unbindAll_evolves linked found
  have handlers (h : Key .handler) : ((g.unbindAll k).drop k).handlers.get? h =
      if h = k then none else (g.unbindAll k).handlers.get? h := Store.get?_erase ..
  have moves := unbound.toMoves.drop
  have outside (d : Key .dispatcher) : k ∉ (g.unbindAll k).membersOf d := by
    rw [unbound.members, mem_placed]
    simp [bindsTo]
  refine ⟨⟨moves, fun {d P} among ids => ?_⟩, moves.linked linked (by simp), fun d isFresh => ?_⟩
  · have left : (g.unbindAll k).Among d P := unbound.among among fun id mem => ids id ?_
    · refine left.of_same (fun h other found => ?_) rfl rfl ids
      rw [handlers] at found
      split at found
      · cases found
      · exact left.own h other found
    · obtain ⟨h, member, other, found, rfl⟩ := mem_memberIds.1 mem
      refine mem_memberIds.2 ⟨h, member, other, ?_, rfl⟩
      rw [handlers, if_neg fun same : h = k => outside d (same ▸ member), found]
  · refine (fresh d isFresh).of_same rfl rfl rfl (sourceOf_congr rfl fun h mem => ?_)
    rw [handlers, if_neg fun same : h = k => outside d (same ▸ mem)]

/-! ## Updating -/

/-- What is kept when a handler is given another entry, and by all that may follow, holds after an
update. -/
theorem update_keeps {I : DispatchGraph → Prop} {entry : ConfigEntry} (start : I g)
    (given : ∀ {handler : Handler} {config : HandlerConfig}, g.handlers.get? k = some handler →
      HandlerConfig.ofEntry handler.id entry = .ok config →
      I { g with handlers := g.handlers.modify k fun handler => { handler with entry, config } })
    (compiled : ∀ {g}, I g → I (g.recompileHandler k).1)
    (bound : ∀ {g}, I g → ∀ reorder, I (g.rebind k reorder))
    (replaced : ∀ {g}, I g → ∀ keys, I (g.recompileEach keys)) : I (g.update k entry).1 := by
  unfold update
  split
  · exact start
  · rename_i handler found
    split
    · exact start
    · rename_i config read
      have first := given found read
      simp only
      generalize ({ g with handlers := _ } : DispatchGraph) = g₁ at first ⊢
      generalize HandlerChanges.ofKeys _ = changes
      have second : I (if changes.recompile then g₁.recompileHandler k else (g₁, false)).1 := by
        split
        · exact compiled first
        · exact first
      generalize (if changes.recompile then _ else _ : DispatchGraph × Bool) = r at second ⊢
      split
      · exact bound second _
      · split
        · exact replaced second _
        · exact second

theorem Becomes.refl {handler : Handler} (linked : g.Linked)
    (found : g.handlers.get? k = some handler) (settled : g.Settled handler) :
    Becomes k handler g g where
  toEvolves := evolves_of_retouched (.refl found) linked found settled.own rfl rfl
  linked
  settled

/-- A handler gets the configuration of another entry and, if that is asked for, the program of
its new source. -/
theorem entry_retouched {handler : Handler} (found : g.handlers.get? k = some handler)
    (own : handler.HoldsOwn g.engine) (entry : ConfigEntry) (config : HandlerConfig)
    (recompile : Bool) : let g₁ := { g with handlers := g.handlers.modify k fun handler =>
      { handler with entry, config } }
    let r := if recompile then g₁.recompileHandler k else (g₁, false)
    ∃ program, ({ handler with entry, config, program }).HoldsOwn g.engine ∧
      Retouched k { handler with entry, config, program } g r.1 ∧
        (r.2 = false → program = handler.program) := by
  intro g₁ r
  have first : Retouched k { handler with entry, config } g g₁ :=
    Retouched.modify (f := fun handler => { handler with entry, config }) found
  have own₁ : ({ handler with entry, config }).HoldsOwn g.engine := own.congr rfl rfl
  have found₁ : g₁.handlers.get? k = some { handler with entry, config } := by
    rw [first.handlers, if_pos rfl]
  cases recompile with
  | false => exact ⟨handler.program, own₁, first, fun _ => rfl⟩
  | true =>
    obtain ⟨program, holds, second, kept⟩ := recompileHandler_retouched found₁ own₁
    exact ⟨program, holds, first.trans second, kept⟩

section

variable {handler handler' : Handler} (linked : g.Linked) (found : g.handlers.get? k = some handler)
  (settled : g.Settled handler) (touched : Retouched k handler' g g')
  (id : handler'.id = handler.id)
  (bound : handler'.bound = handler.bound) (own : handler'.HoldsOwn g.engine)
  (configured : HandlerConfig.ofEntry handler'.id handler'.entry = .ok handler'.config)

include linked found touched in
/-- The programs of dispatchers that the handler was not bound to stay fresh, whatever it became. -/
theorem fresh_of_not_bound (apart : d ∉ handler.bound) (fresh : g.Fresh d) : g'.Fresh d := by
  refine touched.fresh_of_not_mem ?_ fresh
  rwa [linked.mirrored.mem_bound found]

include linked found settled touched id bound own configured

theorem rebind_becomes : ∃ bound, Becomes k { handler' with bound } g (g'.rebind k true) ∧
    (g'.rebind k true).BoundAsNamed { handler' with bound } ∧ ∀ d, g.Fresh d →
      (g'.rebind k true).Fresh d := by
  have found' : g'.handlers.get? k = some handler' := by rw [touched.handlers, if_pos rfl]
  have known (d : Key .dispatcher) (mem : d ∈ handler'.bound) :
      ∃ id, g'.registry.get? id = some d := by
    rw [touched.registry]
    exact settled.known d (bound ▸ mem)
  obtain ⟨new, nodup, named, evolves, fresh⟩ :=
    rebind_evolves (touched.linked linked found id bound) found' known true
  have evolved := evolves.after_retouched touched own fun _ _ => ⟨handler, found, id.symm⟩
  have asNamed : (g'.rebind k true).BoundAsNamed { handler' with bound := new } := by
    intro d
    rw [evolves.registry]
    exact named d
  refine ⟨new, ⟨evolved, ?_, asNamed.known, ?_, configured⟩, asNamed, fun d isFresh =>
    fresh d ?_ (.inl rfl)⟩
  · refine evolved.toMoves.linked linked fun _ eq => ?_
    cases eq
    exact ⟨nodup, fun ne other same => ne (linked.distinct other found (same.trans id))⟩
  · exact evolved.engine ▸ own.congr rfl rfl
  · by_cases mem : d ∈ handler.bound
    · exact .inr ⟨rfl, bound ▸ mem⟩
    · exact .inl (fresh_of_not_bound linked found touched mem isFresh)

theorem recompileEach_becomes (sameBind : handler'.config.bind = handler.config.bind)
    (keys : List (Key .dispatcher)) : Becomes k handler' g (g'.recompileEach keys) ∧
      (g.BoundAsNamed handler → (g'.recompileEach keys).BoundAsNamed handler') := by
  have evolved := (evolves_of_retouched touched linked found own id bound).recompileEach keys
  refine ⟨⟨evolved, ?_, ?_, evolved.engine ▸ own, configured⟩, fun asNamed d => ?_⟩
  · refine evolved.toMoves.linked linked fun _ eq => ?_
    cases eq
    exact ⟨bound ▸ linked.bound_nodup found, fun ne other same =>
      ne (linked.distinct other found (same.trans id))⟩
  · rw [evolved.registry, bound]
    exact settled.known
  · rw [evolved.registry, sameBind, bound]
    exact asNamed d

end

/-- A handler with a new entry is bound as that says, if it was bound as named before, and every
program that was fresh is so afterwards. An entry that cannot be read changes nothing. -/
theorem update_becomes {handler : Handler} (linked : g.Linked)
    (found : g.handlers.get? k = some handler) (settled : g.Settled handler) (entry : ConfigEntry) :
    ∃ handler', handler'.id = handler.id ∧
      handler'.entry = (HandlerConfig.ofEntry handler.id entry).toOption.elim handler.entry
        (fun _ => entry) ∧
      Becomes k handler' g (g.update k entry).1 ∧
      (g.BoundAsNamed handler → (g.update k entry).1.BoundAsNamed handler') ∧
      ∀ d, g.Fresh d → (g.update k entry).1.Fresh d := by
  unfold update
  simp only [found]
  cases read : HandlerConfig.ofEntry handler.id entry with
  | error refused => exact ⟨handler, rfl, rfl, .refl linked found settled, id, fun _ => id⟩
  | ok config =>
    simp only
    generalize changed : HandlerChanges.ofKeys (handler.entry.changedKeys entry) = changes
    obtain ⟨program, own, touched, kept⟩ :=
      entry_retouched found settled.own entry config changes.recompile
    generalize (if changes.recompile then _ else _ : DispatchGraph × Bool) = r at *
    have agrees {key : String} (same : key ∉ handler.entry.changedKeys entry) :=
      ConfigEntry.agreesOn_of_not_changed same
    by_cases rebinds : changes.rebind
    · have reorders : changes.reorder := by
        rw [← changed] at rebinds ⊢
        exact HandlerChanges.reorder_ofKeys.2 (.inl (HandlerChanges.rebind_ofKeys.1 rebinds))
      obtain ⟨bound, becomes, asNamed, fresh⟩ :=
        rebind_becomes linked found settled touched rfl rfl own read
      simp only [rebinds, reorders, if_true]
      exact ⟨{ handler with entry, config, bound, program }, rfl, rfl, becomes, fun _ => asNamed,
        fresh⟩
    · have sameBind : config.bind = handler.config.bind := by
        rw [← changed, HandlerChanges.rebind_ofKeys] at rebinds
        exact (HandlerConfig.bind_of_agrees settled.configured read (agrees rebinds)).symm
      have stays := recompileEach_becomes linked found settled touched rfl rfl own read sameBind
      rw [if_neg rebinds]
      split
      · -- its place or its source changed, so its dispatchers get new programs
        refine ⟨{ handler with entry, config, program }, rfl, rfl, (stays _).1, (stays _).2,
          fun d isFresh => ?_⟩
        have found' : r.1.handlers.get? k = some { handler with entry, config, program } := by
          rw [touched.handlers, if_pos rfl]
        exact fresh_recompileBound found' fun apart =>
          fresh_of_not_bound linked found touched apart isFresh
      · -- it contributes to its dispatchers what it did before
        rename_i nothing
        simp only [Bool.or_eq_true, not_or, Bool.not_eq_true] at nothing
        refine ⟨{ handler with entry, config, program }, rfl, rfl, (stays []).1, (stays []).2,
          fun d isFresh =>
          touched.fresh_of_same found ?_ isFresh⟩
        have sameKey : "priority" ∉ handler.entry.changedKeys entry := by
          intro mem
          have reorders := HandlerChanges.reorder_ofKeys.2 (.inr mem)
          rw [changed, nothing.1] at reorders
          cases reorders
        have samePriority := HandlerConfig.priority_of_agrees settled.configured read
          (agrees sameKey)
        simp only [Handler.contribution, kept nothing.2, samePriority]

end ScriptHost.DispatchGraph
