import ScriptHost.Proofs.Project.Keeping
/-!
# Loading all handlers anew

A load registers the dispatchers that the settings name, retires all handlers, makes new ones
from all files and replaces all programs at the end.

**On the way.** `Emptying`: as long as handlers are retired, every program is fresh or that of a
dispatcher that was just registered. `Filling`: as long as handlers are made, programs are still
of the members that a dispatcher has by then, and only registered dispatchers can have an old
one.

**Results.**
* `load_keeps`: what holds of a project at rest holds again afterwards, and whatever failed to
  compile, no program has a routine of a handler that is not bound now.
-/
namespace ScriptHost

namespace DispatchGraph

variable {g g' : DispatchGraph} {d : Key .dispatcher} {P : String → Prop}

/-! ## Registering dispatchers -/

/-- Dispatchers were added, and each of the new ones is registered. -/
structure Registers (g g' : DispatchGraph) : Prop where
  engine : g'.engine = g.engine
  handlers : g'.handlers = g.handlers
  old : ∀ {d}, g.dispatchers.get? d ≠ none → g'.dispatchers.get? d = g.dispatchers.get? d
  new : ∀ {d dispatcher}, g.dispatchers.get? d = none → g'.dispatchers.get? d = some dispatcher →
    ∃ id, dispatcher = { id } ∧ g'.registry.get? id = some d
  known : ∀ {id d}, g'.registry.get? id = some d →
    g.registry.get? id = some d ∨ g.dispatchers.get? d = none ∧ g'.dispatchers.get? d = some { id }

namespace Registers

theorem refl (g : DispatchGraph) : Registers g g := by
  refine ⟨rfl, rfl, fun _ => rfl, fun missing found => ?_, .inl⟩
  cases missing.symm.trans found

theorem register (h : Registers g g') (id : String) : Registers g (g'.register id) := by
  unfold DispatchGraph.register
  split
  · exact h
  · rename_i unknown
    have absent := Store.get?_nextKey g'.dispatchers
    have notOld : g.dispatchers.get? g'.dispatchers.nextKey = none := by
      by_contra there
      exact there ((h.old there).symm.trans absent)
    have elsewhere {d : Key .dispatcher} (there : g'.dispatchers.get? d ≠ none) :
        d ≠ g'.dispatchers.nextKey :=
      fun same => there (same ▸ absent)
    refine ⟨h.engine, h.handlers, fun {d} there => ?_, fun {d dispatcher} missing found =>
      ?_, fun {name d} found => ?_⟩
    · have there' : g'.dispatchers.get? d ≠ none := by rwa [h.old there]
      rw [Store.get?_add, if_neg (elsewhere there'), h.old there]
    · rw [Store.get?_add] at found
      split at found
      · rename_i isNext
        cases found
        exact ⟨id, rfl, by rw [Table.get?_insert, if_pos rfl, isNext]⟩
      · obtain ⟨name, rfl, registered⟩ := h.new missing found
        refine ⟨name, rfl, ?_⟩
        rw [Table.get?_insert, if_neg, registered]
        rintro rfl
        simp [Table.contains, registered] at unknown
    · rw [Table.get?_insert] at found
      split at found
      · rename_i same
        cases found
        exact .inr ⟨notOld, by rw [Store.get?_add, if_pos rfl, same]⟩
      · refine (h.known found).imp_right fun made => ⟨made.1, ?_⟩
        rw [Store.get?_add, if_neg (elsewhere (by simp [made.2])), made.2]

theorem registerOnly (g : DispatchGraph) (ids : List String) :
    Registers g (g.registerOnly ids) := by
  refine List.foldlRecOn (motive := Registers g) ids _ ?_ fun g' h id _ => h.register id
  refine ⟨rfl, rfl, fun _ => rfl, fun missing found => ?_, fun found => .inl ?_⟩
  · cases missing.symm.trans found
  · rw [← Table.mem_entries_iff] at found ⊢
    exact (List.mem_filter.1 found).1

theorem cases (h : Registers g g') (d : Key .dispatcher) :
    g'.dispatchers.get? d = g.dispatchers.get? d ∨
      g.dispatchers.get? d = none ∧ ∃ id, g'.dispatchers.get? d = some { id } ∧
        g'.registry.get? id = some d := by
  by_cases there : g.dispatchers.get? d = none
  · cases found : g'.dispatchers.get? d with
    | none => exact .inl there.symm
    | some dispatcher =>
      obtain ⟨id, rfl, registered⟩ := h.new there found
      exact .inr ⟨there, id, rfl, registered⟩
  · exact .inl (h.old there)

theorem membersOf (h : Registers g g') (d : Key .dispatcher) : g'.membersOf d = g.membersOf d := by
  rcases h.cases d with same | ⟨missing, id, found, -⟩
  · rw [DispatchGraph.membersOf, DispatchGraph.membersOf, same]
  · simp [DispatchGraph.membersOf, missing, found]

theorem programOf (h : Registers g g') (d : Key .dispatcher) : g'.programOf d = g.programOf d := by
  rcases h.cases d with same | ⟨missing, id, found, -⟩
  · rw [DispatchGraph.programOf, DispatchGraph.programOf, same]
  · simp [DispatchGraph.programOf, missing, found]

theorem memberIds (h : Registers g g') (d : Key .dispatcher) : g'.memberIds d = g.memberIds d := by
  rw [memberIds_eq, memberIds_eq, h.membersOf, h.handlers]

theorem linked (h : Registers g g') (linked : g.Linked) : g'.Linked where
  registered {id d} found := by
    rcases h.known found with old | ⟨-, new⟩
    · have there := linked.registered old
      rcases h.cases d with same | ⟨missing, -⟩
      · rwa [idOf, same]
      · simp [idOf, missing] at there
    · simp [idOf, new]
  members_nodup d := by
    rw [h.membersOf]
    exact linked.members_nodup d
  bound_nodup found := linked.bound_nodup (h.handlers ▸ found)
  mem_iff {d j} := by
    rw [h.membersOf, h.handlers]
    exact linked.mem_iff
  distinct found found' := linked.distinct (h.handlers ▸ found) (h.handlers ▸ found')

end Registers

/-! ## Idle dispatchers -/

/-- A dispatcher has a fresh program, or it is registered and nothing runs in it. -/
def Idle (g : DispatchGraph) (d : Key .dispatcher) : Prop :=
  g.Fresh d ∨ (∃ id, g.registry.get? id = some d) ∧ g.Among d fun _ => False

theorem Registers.idle (h : Registers g g') (own : g.AllOwn) (fresh : g.Fresh d) : g'.Idle d := by
  rcases h.cases d with same | ⟨missing, id, found, registered⟩
  · refine .inl (fresh.of_same h.engine (by rw [idOf, idOf, same]) (h.programOf d) ?_)
    exact sourceOf_congr (h.membersOf d) fun _ _ => by rw [h.handlers]
  · refine .inr ⟨⟨id, registered⟩, fun j handler there => ?_, ?_, ?_⟩
    · rw [h.engine]
      exact own j handler (h.handlers ▸ there)
    · simp [memberIds_eq, DispatchGraph.membersOf, found]
    · simp [DispatchGraph.programOf, found]

/-- When a handler goes, no id comes in. -/
theorem Moves.memberIds_of_none {k : Key .handler} (h : Moves k none g g') {id : String}
    (mem : id ∈ g'.memberIds d) : id ∈ g.memberIds d := by
  obtain ⟨j, member, handler, found, rfl⟩ := mem_memberIds.1 mem
  rw [h.members, mem_placed] at member
  rw [h.handlers] at found
  split at found
  · cases found
  · rename_i notK
    rw [if_neg notK] at member
    exact mem_memberIds.2 ⟨j, member, handler, found, rfl⟩

theorem Evolves.idle {k : Key .handler} (h : Evolves k none g g') (fresh : g.Fresh d → g'.Fresh d)
    (idle : g.Idle d) : g'.Idle d := by
  refine idle.imp fresh fun ⟨⟨id, registered⟩, among⟩ => ⟨⟨id, h.registry ▸ registered⟩, ?_⟩
  exact h.among among fun id mem => among.members id (h.toMoves.memberIds_of_none mem)

end DispatchGraph

open DispatchGraph

variable {registry : Registry
  (Key .handler)} {g g' : DispatchGraph} {k : Key .handler} {asNamed : Prop}
  {before : DispatchGraph} {earlier : List DispatchGraph} {s : DispatchGraph × List DispatchGraph}

/-! ## Retiring the old handlers -/

/-- What holds while all handlers are retired. -/
structure Emptying (earlier : List DispatchGraph) (registry : Registry (Key .handler))
    (s : DispatchGraph × List DispatchGraph) : Prop where
  tracks : Tracks registry s.1
  idle : ∀ d, s.1.Idle d
  recorded : Recorded earlier s.1 s.2

theorem Emptying.retired {id : String} {owned : Owned (Key .handler)}
    (h : Emptying earlier registry s) (known : registry.get? id = some owned) :
    Emptying earlier (registry.erase id) (Handler.kind.recorded.retire owned.entity s) := by
  obtain ⟨handler, found, -⟩ := h.tracks.entities known
  obtain ⟨evolves, linked, fresh⟩ := retire_evolves h.tracks.linked found
  refine ⟨h.tracks.erase known evolves.toMoves linked, fun d => evolves.idle (fresh d) (h.idle d),
    h.recorded.cons fun d => ?_⟩
  exact evolves.follows h.tracks.linked linked (fun _ _ _ eq => by cases eq) d

/-! ## Making the new handlers -/

/-- What holds while new handlers are made, whose dispatchers keep their programs until all are
there. -/
structure Filling (asNamed : Prop) (earlier : List DispatchGraph)
    (registry : Registry (Key .handler)) (s : DispatchGraph × List DispatchGraph) : Prop where
  inOrder : InOrder asNamed registry s.1
  clean : ∀ d, s.1.Among d (· ∈ s.1.memberIds d)
  fresh : ∀ d, (∃ id, s.1.registry.get? id = some d) ∨ s.1.Fresh d
  recorded : Recorded earlier s.1 s.2

/-- When all handlers are gone, making new ones can begin. -/
theorem Emptying.filling (h : Emptying earlier .empty s) : Filling asNamed earlier .empty s := by
  have gone (j : Key .handler) : s.1.handlers.get? j = none := by
    cases found : s.1.handlers.get? j with
    | none => rfl
    | some handler =>
      obtain ⟨owned, known, -⟩ := h.tracks.owned found
      cases known
  have nobody (d : Key .dispatcher) : s.1.crewOf d = [] := by
    simp [crewOf, gone]
  refine ⟨⟨h.tracks, fun found => ?_, fun _ _ _ found => ?_⟩, fun d => ?_, fun d => ?_, h.recorded⟩
  · cases (gone _).symm.trans found
  · cases (gone _).symm.trans found
  · rcases h.idle d with fresh | ⟨-, among⟩
    · obtain ⟨program, made⟩ := nothing_compiles s.1.engine
      refine @Fresh.among _ _ fresh (fun j handler found => ?_) program ?_
      · cases (gone j).symm.trans found
      rw [sourceOf, handlersOf_eq, nobody]
      exact made
    · exact among.mono fun _ impossible => impossible.elim
  · exact (h.idle d).symm.imp_left (·.1)

theorem Filling.failed {id : String} {entry : ConfigEntry} {s' : DispatchGraph × List DispatchGraph}
    (h : Filling asNamed earlier registry s)
    (made : Handler.kind.recorded.create id entry s = (none, s')) :
    Filling asNamed earlier registry s' := by
  rcases recorded_create_cases made with ⟨-, rfl⟩ | ⟨_, -, none, -⟩
  · exact ⟨h.inOrder, h.clean, h.fresh, h.recorded.cons fun d => .of_eq rfl⟩
  · cases none

theorem Filling.created {id file : String} {entry : ConfigEntry} {k : Key .handler}
    {s' : DispatchGraph × List DispatchGraph} (h : Filling asNamed earlier registry s)
    (new : registry.contains id = false)
    (made : Handler.kind.recorded.create id entry s = (some k, s')) :
    Filling asNamed earlier (registry.insert id ⟨file, k⟩) s' := by
  obtain ⟨g, states⟩ := s
  rcases recorded_create_cases made with ⟨none, -⟩ | ⟨g', created, isNext, rfl⟩
  · cases none
  · cases isNext
    obtain ⟨handler, rfl, newcomer⟩ := h.inOrder.create new created
    refine ⟨newcomer.inOrder file, fun d => ?_, fun d => ?_, h.recorded.cons newcomer.follows⟩
    · refine newcomer.among ((h.clean d).mono fun id mem => ?_) fun id mem => mem
      obtain ⟨j, member, other, found, rfl⟩ := mem_memberIds.1 mem
      have notNew : j ≠ g.handlers.nextKey := by
        rintro rfl
        cases newcomer.absent.symm.trans found
      refine mem_memberIds.2 ⟨j, ?_, other, ?_, rfl⟩
      · rw [newcomer.members, mem_placed, if_neg notNew]
        exact member
      · rw [newcomer.handlers, if_neg notNew, found]
    · by_cases mem : d ∈ handler.bound
      · exact .inl (newcomer.named.known d mem)
      · exact (h.fresh d).imp (fun ⟨id, registered⟩ => ⟨id, newcomer.registry ▸ registered⟩)
          (newcomer.fresh d mem)

/-- When all new handlers are there, all programs are replaced. -/
theorem Filling.kept (h : Filling asNamed earlier registry s) :
    Kept asNamed before earlier registry (s.1.recompileAll, s.1.recompileAll :: s.2) ∧
      ∀ d, s.1.recompileAll.Among d (· ∈ s.1.recompileAll.memberIds d) := by
  have ids := memberIds_recompileEach s.1 s.1.registry.values
  have clean (d : Key .dispatcher) :
      s.1.recompileAll.Among d (· ∈ s.1.recompileAll.memberIds d) := by
    have among := (h.clean d).recompileEach s.1.registry.values
    rwa [← ids d] at among
  refine ⟨⟨h.inOrder.recompileEach _, fun d => ?_, h.recorded.cons fun d =>
    .of_eq (ids d), fun d P _ apart => ?_⟩, clean⟩
  · rcases h.fresh d with ⟨id, registered⟩ | fresh
    · exact fresh_recompileEach
        (List.mem_map.2 ⟨(id, d), (Table.mem_entries_iff ..).2 registered, rfl⟩) s.1
    · exact fresh.recompileEach _
  · exact (clean d).mono fun id mem => apart _ (.head _) id mem

/-! ## The whole load -/

/-- A load of all handlers restores what holds of a project at rest, and leaves no routine of
any other handler. -/
theorem load_keeps {past : Prop} {states : List DispatchGraph} (inOrder : InOrder past registry g)
    (fresh : ∀ d, g.Fresh d) (registers : Registers g g') (recorded : Recorded earlier g' states)
    (files : List (String × ConfigDocument)) :
    let l := registry.load Handler.kind.recorded files (g', states)
    Kept asNamed before earlier l.registry l.surroundings ∧
      ∀ d, l.surroundings.1.Among d (· ∈ l.surroundings.1.memberIds d) := by
  intro l
  have emptying : Emptying earlier registry (g', states) := by
    refine ⟨⟨registers.linked inOrder.linked, ?_, ?_⟩, fun d => registers.idle inOrder.allOwn
      (fresh d), recorded⟩
    · rw [registers.handlers]
      exact inOrder.entities
    · rw [registers.handlers]
      exact inOrder.owned
  have emptied : Emptying earlier .empty (Registry.retireAll Handler.kind.recorded registry
      (g', states)) :=
    Registry.retireAll_keeps Emptying.retired emptying
  have filled :=
    Registry.loadFiles_keeps (I := Filling asNamed earlier) Filling.failed Filling.created files
    (l := ⟨.empty, _, {}⟩) emptied.filling
  have eq : l = _ := Registry.load_quiet Handler.kind.recorded rfl registry files (g', states)
  rw [eq]
  exact filled.kept

theorem sync_keeps (h : Kept asNamed before earlier registry s) (file : String)
    (document : ConfigDocument) : let y := registry.sync Handler.kind.recorded file document s
    Kept asNamed before earlier y.registry y.surroundings :=
  Registry.sync_keeps (fun h known _ _ _ => updated_keeps h known) retired_keeps failed_keeps
    created_keeps h

end ScriptHost
