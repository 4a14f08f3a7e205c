import ScriptHost.Proofs.Dispatch.Pairing
/-!
# Binding a handler anew

Dispatchers come and go while handlers are made, changed, bound and unbound. In whatever graph that
leads to, a handler can be bound anew: it leaves the dispatchers that its configuration no longer
lists, stays at those that it does, and joins the registered ones of the ids that are left.

**What holds.** `Arisen`: the graph came about by such operations. `Arisen.paired`: its two sides
agree.

**Results.**
* `rebind_reconciles`: what binding anew comes to, and that it comes to nothing when it is done
  twice.
-/
namespace ScriptHost.DispatchGraph

/-- The graphs that an empty one becomes as dispatchers are registered or not any more, and handlers
are made, changed, bound anew, unbound and let go. A handler may also be given any configuration
before that has a consequence, and programs may be replaced at any time. -/
inductive Arisen (engine : Engine) : DispatchGraph → Prop where
  | empty : Arisen engine { engine }
  | register {g} (arisen : Arisen engine g) (id : String) : Arisen engine (g.register id)
  | registerOnly {g} (arisen : Arisen engine g) (ids : List String) :
      Arisen engine (g.registerOnly ids)
  | create {g g'} (arisen : Arisen engine g) {id : String} {entry : ConfigEntry}
      (made : g.create id entry = .ok g') : Arisen engine g'
  | update {g} (arisen : Arisen engine g) (h : Key .handler) (entry : ConfigEntry) :
      Arisen engine (g.update h entry).1
  | configure {g} (arisen : Arisen engine g) (h : Key .handler) (config : HandlerConfig) :
      Arisen engine
        { g with handlers := g.handlers.modify h fun handler => { handler with config } }
  | rebind {g} (arisen : Arisen engine g) (h : Key .handler) (reorder : Bool) :
      Arisen engine (g.rebind h reorder)
  | unbindAll {g} (arisen : Arisen engine g) (h : Key .handler) : Arisen engine (g.unbindAll h)
  | retire {g} (arisen : Arisen engine g) (h : Key .handler) :
      Arisen engine ((g.unbindAll h).drop h)
  | recompile {g} (arisen : Arisen engine g) (d : Key .dispatcher) : Arisen engine (g.recompile d)
  | recompileHandler {g} (arisen : Arisen engine g) (h : Key .handler) :
      Arisen engine (g.recompileHandler h).1

variable {g g' : DispatchGraph} {k : Key .handler} {handler : Handler}

/-! ## Operations keep the pairs -/

namespace Paired

theorem empty (engine : Engine) : Paired { engine } where
  registered found := by simp at found
  members_nodup d := .nil
  mem_iff := by simp [membersOf]
  apart found := by simp at found

theorem rebound (paired : g.Paired) (k : Key .handler) (reorder : Bool) :
    (g.rebind k reorder).Paired := by
  cases found : g.handlers.get? k with
  | none => simpa only [DispatchGraph.rebind, found] using paired
  | some handler =>
    obtain ⟨joined, reconciled⟩ := paired.rebind found reorder
    have after := reconciled.paired paired found
    rwa [Watched.graph_rebind] at after

theorem recompiled (paired : g.Paired) (k : Key .handler) : (g.recompileHandler k).1.Paired := by
  cases found : g.handlers.get? k with
  | none => simpa only [DispatchGraph.recompileHandler, found] using paired
  | some handler => exact paired.retouched (recompileHandler_eq found) found rfl

theorem recompileEach (paired : g.Paired) (keys : List (Key .dispatcher)) :
    (g.recompileEach keys).Paired :=
  paired.of_framed (.recompileEach keys g) (membersOf_recompileEach keys · g)

theorem create (paired : g.Paired) {id : String} {entry : ConfigEntry}
    (made : g.create id entry = .ok g') : g'.Paired := by
  simp only [DispatchGraph.create, bind_eq_ok, pure_eq_ok] at made
  obtain ⟨config, -, rfl⟩ := made
  have added : Retouched g.handlers.nextKey { id, entry, config } g
      { g with handlers := g.handlers.add { id, entry, config } } :=
    ⟨rfl, rfl, rfl, Store.get?_add _ _⟩
  exact ((paired.added added (Store.get?_nextKey _) rfl).recompiled _).rebound _ false

theorem update (paired : g.Paired) (k : Key .handler) (entry : ConfigEntry) :
    (g.update k entry).1.Paired := by
  refine update_keeps paired (fun {handler config} found _ => ?_) (·.recompiled k)
    (fun paired => paired.rebound k) fun paired => paired.recompileEach
  have given := Retouched.modify (f := fun handler => { handler with entry, config }) found
  exact paired.retouched given found rfl

theorem unbindAll (paired : g.Paired) (k : Key .handler) : (g.unbindAll k).Paired := by
  cases found : g.handlers.get? k with
  | none => simpa only [DispatchGraph.unbindAll, found] using paired
  | some handler =>
    refine paired.moves (paired.mirrored.moves_unbindAll found) fun _ eq => ?_
    cases eq
    exact .nil g

theorem retire (paired : g.Paired) (k : Key .handler) : ((g.unbindAll k).drop k).Paired := by
  have moves : Moves k none g ((g.unbindAll k).drop k) := by
    cases found : g.handlers.get? k with
    | none =>
      have same : (g.unbindAll k).drop k = g.drop k := by
        simp only [DispatchGraph.unbindAll, found]
      rw [same]
      refine ⟨rfl, rfl, fun _ => rfl, fun h => Store.get?_erase _ _ _, fun d => ?_⟩
      exact (filter_of_not_mem (paired.mirrored.not_mem found d)).symm
    | some handler => exact (paired.mirrored.moves_unbindAll found).drop
  exact paired.moves moves (by simp)

end Paired

theorem Arisen.paired {engine : Engine} (arisen : Arisen engine g) : g.Paired := by
  induction arisen with
  | empty => exact .empty engine
  | register _ id ih => exact ih.registers ((Registers.refl _).register id)
  | registerOnly _ ids ih => exact ih.registers (.registerOnly _ ids)
  | create _ made ih => exact ih.create made
  | update _ h entry ih => exact ih.update h entry
  | @configure g _ h config ih =>
    cases found : g.handlers.get? h with
    | none =>
      rwa [Store.modify_eq_self fun handler there => by cases found.symm.trans there]
    | some handler =>
      exact ih.retouched (Retouched.modify (f := fun handler => { handler with config }) found)
        found rfl
  | rebind _ h reorder ih => exact ih.rebound h reorder
  | unbindAll _ h ih => exact ih.unbindAll h
  | retire _ h ih => exact ih.retire h
  | recompile _ d ih => exact ih.of_framed (.recompile _ d) (by simp)
  | recompileHandler _ h ih => exact ih.recompiled h

/-! ## Binding anew -/

/-- However a graph has arisen, a handler that is bound anew is reconciled with the list of ids of
its configuration: `Reconciled` says where it is bound then, what becomes of the members of each
dispatcher, and for which dispatchers a new program was attempted. To bind it anew again changes
nothing and attempts nothing. -/
theorem rebind_reconciles {engine : Engine} (arisen : Arisen engine g)
    (found : g.handlers.get? k = some handler) (reorder : Bool) :
    ∃ joined, Reconciled k handler reorder joined g (({ graph := g } : Watched).rebind k reorder) ∧
      (({ graph := g } : Watched).rebind k reorder).graph = g.rebind k reorder ∧
      (g.rebind k reorder).rebind k false = g.rebind k reorder ∧
      (({ graph := g.rebind k reorder } : Watched).rebind k false).attempts = [] := by
  obtain ⟨joined, reconciled⟩ := arisen.paired.rebind found reorder
  have same : (({ graph := g } : Watched).rebind k reorder).graph = g.rebind k reorder :=
    Watched.graph_rebind _ k reorder
  have again := same ▸ reconciled.again
  refine ⟨joined, reconciled, same, ?_, congrArg Watched.attempts again⟩
  rw [← Watched.graph_rebind { graph := g.rebind k reorder }, again]

def twoPosts : ConfigEntry := .ofList [("bind", .array [.string "front", .string "back"]),
  ("handle", .string "print *ring")]

/-- A handler of two dispatchers, one of which is not registered any more, is given a list with an
id twice and one that is unknown. -/
def reposted (g : DispatchGraph) : DispatchGraph :=
  let g := g.registerOnly ["back", "side"]
  { g with handlers := g.handlers.modify ⟨0⟩ fun handler =>
      { handler with config := { bind := ["side", "back", "cellar", "side"] } } }

/-- It leaves the dispatcher that is not listed, stays at the other and joins the new one once. -/
theorem rebind_reconciles_reposted : ∃ g handler joined,
    Arisen .core g ∧ g.handlers.get? ⟨0⟩ = some handler ∧ handler.bound = [⟨0⟩, ⟨1⟩] ∧
      Reconciled ⟨0⟩ handler true joined g (({ graph := g } : Watched).rebind ⟨0⟩ true) ∧
      (({ graph := g } : Watched).rebind ⟨0⟩ true).attempts = [⟨0⟩, ⟨1⟩, ⟨2⟩] ∧
      (g.rebind ⟨0⟩ true).rebind ⟨0⟩ false = g.rebind ⟨0⟩ true := by
  let start := (register { engine := .core } "front").register "back"
  have parts : (start.create "guard" twoPosts).toOption.any (fun g => decide (
      ((reposted g).handlers.get? ⟨0⟩).map (·.bound) = some [⟨0⟩, ⟨1⟩] ∧
        (({ graph := reposted g } : Watched).rebind ⟨0⟩ true).attempts = [⟨0⟩, ⟨1⟩, ⟨2⟩])) =
      true := by
    decide +kernel
  obtain ⟨g, made, holds⟩ := (Option.any_eq_true _ _).1 parts
  obtain ⟨holds, attempts⟩ := of_decide_eq_true holds
  obtain ⟨handler, found, bound⟩ := Option.map_eq_some_iff.1 holds
  have arisen : Arisen .core (reposted g) :=
    ((((Arisen.empty.register "front").register "back").create
      (toOption_eq_some.1 made)).registerOnly _).configure _ _
  obtain ⟨joined, reconciled, -, again, -⟩ := rebind_reconciles arisen found true
  exact ⟨_, handler, joined, arisen, found, bound, reconciled, attempts, again⟩

end ScriptHost.DispatchGraph
