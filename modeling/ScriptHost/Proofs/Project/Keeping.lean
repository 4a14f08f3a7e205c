import ScriptHost.Project
import ScriptHost.Proofs.Dispatch.Creating
import ScriptHost.Proofs.Project.History
import ScriptHost.Proofs.Project.Registries
/-!
# What a project keeps of its handlers

The registry of a project knows handlers by their ids, the dispatch graph by their keys.

**What holds.** `InOrder`: the registry has exactly the handlers of the graph, the graph is
linked, and every handler is settled. `Kept`: moreover every program is fresh, the members of a
dispatcher are in the order in which they were bound, and no program has come to have a routine
of a handler that was not bound in the meantime.

**Results.**
* `updated_keeps`, `retired_keeps`, `failed_keeps`, `created_keeps`, `unbound_keeps`: every
  operation on a handler keeps this.
-/
namespace ScriptHost

open DispatchGraph

variable {registry : Registry
  (Key .handler)} {g g' : DispatchGraph} {k : Key .handler} {asNamed : Prop}

/-! ## Registry and graph -/

/-- The registry has exactly the handlers of a linked graph, each under its id. -/
structure Tracks (registry : Registry (Key .handler)) (g : DispatchGraph) : Prop where
  linked : g.Linked
  entities : ∀ {id owned}, registry.get? id = some owned →
    ∃ handler, g.handlers.get? owned.entity = some handler ∧ handler.id = id
  owned : ∀ {h handler}, g.handlers.get? h = some handler →
    ∃ owned, registry.get? handler.id = some owned ∧ owned.entity = h

/-- The registry has exactly the handlers of the graph, and all are settled; if it is so, also
bound as named. -/
structure InOrder (asNamed : Prop) (registry : Registry (Key .handler)) (g : DispatchGraph) : Prop
    extends Tracks registry g where
  settled : ∀ {h handler}, g.handlers.get? h = some handler → g.Settled handler
  named : asNamed → ∀ {h handler}, g.handlers.get? h = some handler → g.BoundAsNamed handler

namespace Tracks

theorem insert {handler : Handler} (tracks : Tracks registry g)
    (moves : Moves k (some handler) g g') (linked : g'.Linked)
    (own : ∀ other, g.handlers.get? k = some other → other.id = handler.id) (file : String) :
    Tracks (registry.insert handler.id ⟨file, k⟩) g' where
  linked
  entities {id owned} found := by
    rw [Table.get?_insert] at found
    split at found
    · rename_i same
      cases found
      exact ⟨handler, by rw [moves.handlers, if_pos rfl], same⟩
    · rename_i other
      obtain ⟨handler', there, rfl⟩ := tracks.entities found
      have notK : owned.entity ≠ k := fun same => other (own handler' (same ▸ there)).symm
      exact ⟨handler', by rw [moves.handlers, if_neg notK, there], rfl⟩
  owned {h handler'} found := by
    have own' : g'.handlers.get? k = some handler := by rw [moves.handlers, if_pos rfl]
    by_cases same : handler.id = handler'.id
    · exact ⟨⟨file, k⟩, by rw [Table.get?_insert, if_pos same], linked.distinct own' found same⟩
    · have notK : h ≠ k := by
        rintro rfl
        rw [own'] at found
        exact same (congrArg (·.id) (Option.some.inj found))
      rw [moves.handlers, if_neg notK] at found
      obtain ⟨owned, known, entity⟩ := tracks.owned found
      exact ⟨owned, by rw [Table.get?_insert, if_neg same, known], entity⟩

theorem erase {id : String} {owned : Owned (Key .handler)} (tracks : Tracks registry g)
    (known : registry.get? id = some owned) (moves : Moves owned.entity none g g')
    (linked : g'.Linked) : Tracks (registry.erase id) g' where
  linked
  entities {id' owned'} found := by
    rw [Table.get?_erase] at found
    split at found
    · cases found
    · rename_i other
      obtain ⟨handler, alive, rfl⟩ := tracks.entities known
      obtain ⟨handler', there, rfl⟩ := tracks.entities found
      have notK : owned'.entity ≠ owned.entity := by
        intro same
        rw [same, alive] at there
        exact other (congrArg (·.id) (Option.some.inj there))
      exact ⟨handler', by rw [moves.handlers, if_neg notK, there], rfl⟩
  owned {h handler} found := by
    rw [moves.handlers] at found
    split at found
    · cases found
    · rename_i notK
      obtain ⟨owned', known', entity⟩ := tracks.owned found
      refine ⟨owned', ?_, entity⟩
      rw [Table.get?_erase, if_neg, known']
      rintro rfl
      rw [known] at known'
      exact notK (entity ▸ congrArg (·.entity) (Option.some.inj known').symm)

end Tracks

namespace InOrder

theorem allOwn (inOrder : InOrder asNamed registry g) : g.AllOwn :=
  fun _ _ found => (inOrder.settled found).own

theorem settled_congr {handler : Handler} (engine : g'.engine = g.engine)
    (same : g'.registry = g.registry) (settled : g.Settled handler) : g'.Settled handler where
  known := same ▸ settled.known
  own := engine ▸ settled.own
  configured := settled.configured

theorem insert {handler : Handler} (inOrder : InOrder asNamed registry g)
    (becomes : Becomes k handler g g')
    (own : ∀ other, g.handlers.get? k = some other → other.id = handler.id)
    (named : asNamed → g'.BoundAsNamed handler) (file : String) :
    InOrder asNamed (registry.insert handler.id ⟨file, k⟩) g' where
  toTracks := inOrder.toTracks.insert becomes.toMoves becomes.linked own file
  settled {h other} found := by
    rw [becomes.handlers] at found
    split at found
    · cases found
      exact becomes.settled
    · exact settled_congr becomes.engine becomes.registry (inOrder.settled found)
  named is {h other} found := by
    rw [becomes.handlers] at found
    split at found
    · cases found
      exact named is
    · unfold BoundAsNamed
      rw [becomes.registry]
      exact inOrder.named is found

theorem erase {id : String} {owned : Owned (Key .handler)} (inOrder : InOrder asNamed registry g)
    (known : registry.get? id = some owned) (moves : Moves owned.entity none g g')
    (linked : g'.Linked) : InOrder asNamed (registry.erase id) g' where
  toTracks := inOrder.toTracks.erase known moves linked
  settled {h other} found := by
    rw [moves.handlers] at found
    split at found
    · cases found
    · exact settled_congr moves.engine moves.registry (inOrder.settled found)
  named is {h other} found := by
    rw [moves.handlers] at found
    split at found
    · cases found
    · unfold BoundAsNamed
      rw [moves.registry]
      exact inOrder.named is found

theorem recompileEach (inOrder : InOrder asNamed registry g) (keys : List (Key .dispatcher)) :
    InOrder asNamed registry (g.recompileEach keys) := by
  have framed := Framed.recompileEach keys g
  constructor
  · constructor
    · constructor
      · intro id d found
        rw [framed.ids]
        exact inOrder.linked.registered (framed.registry ▸ found)
      · simpa using inOrder.linked.members_nodup
      · rw [framed.handlers]
        exact inOrder.linked.bound_nodup
      · intro d h
        rw [membersOf_recompileEach, framed.handlers]
        exact inOrder.linked.mem_iff
      · rw [framed.handlers]
        exact inOrder.linked.distinct
    · rw [framed.handlers]
      exact inOrder.entities
    · rw [framed.handlers]
      exact inOrder.owned
  · intro h handler found
    exact settled_congr framed.engine framed.registry (inOrder.settled (framed.handlers ▸ found))
  · intro is h handler found
    unfold BoundAsNamed
    rw [framed.registry]
    exact inOrder.named is (framed.handlers ▸ found)

end InOrder

/-! ## At rest -/

/-- A program stays among the handlers that it was made of as long as no other is bound. -/
def Stays (before g : DispatchGraph) (states : List DispatchGraph) : Prop :=
  ∀ d P, before.Among d P → (∀ x ∈ states, ∀ id ∈ x.memberIds d, P id) → g.Among d P

/-- What holds of a registry and a graph, with what was written down since the graph was
`before`. -/
structure Kept (asNamed : Prop) (before : DispatchGraph) (earlier : List DispatchGraph)
    (registry : Registry (Key .handler)) (s : DispatchGraph × List DispatchGraph) : Prop where
  inOrder : InOrder asNamed registry s.1
  fresh : ∀ d, s.1.Fresh d
  recorded : Recorded earlier s.1 s.2
  stays : Stays before s.1 s.2

theorem Stays.cons {before : DispatchGraph} {states : List DispatchGraph}
    (stays : Stays before g states) {after : Option Handler} (evolves : Evolves k after g g') :
    Stays before g' (g' :: states) := by
  intro d P among apart
  exact evolves.among (stays d P among fun x mem => apart x (.tail _ mem)) (apart g' (.head _))

theorem Stays.recompileEach {before : DispatchGraph} {states : List DispatchGraph}
    (stays : Stays before g states) (keys : List (Key .dispatcher)) :
    Stays before (g.recompileEach keys)
      (g.recompileEach keys :: states) := by
  intro d P among apart
  exact (stays d P among fun x mem => apart x (.tail _ mem)).recompileEach keys

theorem memberIds_recompileEach (g : DispatchGraph) (keys : List (Key .dispatcher))
    (d : Key .dispatcher) :
    (g.recompileEach keys).memberIds d = g.memberIds d :=
  memberIds_of_framed (.recompileEach keys g) (membersOf_recompileEach ..)

/-- What becomes of the graph and of the registry when a handler is given another entry. -/
structure Incumbent (asNamed : Prop) (known : Registry (Key .handler))
    (owned : Owned (Key .handler))
    (given : ConfigEntry) (g g' : DispatchGraph) (handler handler' : Handler) : Prop
    extends Becomes owned.entity handler' g g' where
  found : g.handlers.get? owned.entity = some handler
  sameId : handler'.id = handler.id
  entry : handler'.entry =
    (HandlerConfig.ofEntry handler.id given).toOption.elim handler.entry fun _ => given
  fresh : ∀ d, g.Fresh d → g'.Fresh d
  inOrder : InOrder asNamed (known.insert handler.id ⟨owned.file, owned.entity⟩) g'

theorem InOrder.update {id : String} {owned : Owned (Key .handler)}
    (inOrder : InOrder asNamed registry g) (known : registry.get? id = some owned)
    (entry : ConfigEntry) : ∃ handler handler', handler.id = id ∧
      Incumbent asNamed registry owned entry g (g.update owned.entity entry).1 handler
        handler' := by
  obtain ⟨handler, found, rfl⟩ := inOrder.entities known
  obtain ⟨handler', sameId, given, becomes, named, fresh⟩ :=
    update_becomes inOrder.linked found (inOrder.settled found) entry
  refine ⟨handler, handler', rfl, becomes, found, sameId, given, fresh, ?_⟩
  rw [← sameId]
  refine inOrder.insert becomes (fun other found' => ?_)
    (fun is => named (inOrder.named is found)) owned.file
  cases found.symm.trans found'
  exact sameId.symm

theorem Incumbent.own {owned : Owned (Key .handler)} {given : ConfigEntry}
    {handler handler' : Handler}
    (incumbent : Incumbent asNamed registry owned given g g' handler handler') (other : Handler)
    (found : g.handlers.get? owned.entity = some other) : other.id = handler'.id := by
  cases incumbent.found.symm.trans found
  exact incumbent.sameId.symm

section Kept

variable {before : DispatchGraph} {earlier : List DispatchGraph}
  {s : DispatchGraph × List DispatchGraph}

theorem updated_keeps {id : String} {owned : Owned (Key .handler)} {entry : ConfigEntry}
    (h : Kept asNamed before earlier registry s) (known : registry.get? id = some owned) :
    Kept asNamed before earlier
      (registry.insert id ⟨owned.file, (Handler.kind.recorded.update owned.entity entry s).1⟩)
      (Handler.kind.recorded.update owned.entity entry s).2 := by
  obtain ⟨g, states⟩ := s
  obtain ⟨handler, handler', rfl, incumbent⟩ := h.inOrder.update known entry
  refine ⟨incumbent.inOrder, fun d => incumbent.fresh d (h.fresh d), h.recorded.cons fun d => ?_,
    h.stays.cons incumbent.toEvolves⟩
  refine incumbent.follows h.inOrder.linked incumbent.linked (fun other _ found' eq => ?_) d
  cases eq
  exact (incumbent.own other found').symm

theorem retired_keeps {id : String} {owned : Owned (Key .handler)}
    (h : Kept asNamed before earlier registry s) (known : registry.get? id = some owned) :
    Kept asNamed before earlier (registry.erase id)
      (Handler.kind.recorded.retire owned.entity s) := by
  obtain ⟨g, states⟩ := s
  obtain ⟨handler, found, -⟩ := h.inOrder.entities known
  obtain ⟨evolves, linked, fresh⟩ := retire_evolves h.inOrder.linked found
  refine ⟨h.inOrder.erase known evolves.toMoves linked, fun d => fresh d (h.fresh d),
    h.recorded.cons fun d => ?_,
    h.stays.cons evolves⟩
  exact evolves.follows h.inOrder.linked linked (fun _ _ _ eq => by cases eq) d

/-- An operation that does nothing may be written down. -/
theorem Kept.unchanged (h : Kept asNamed before earlier registry s) :
    Kept asNamed before earlier registry (s.1, s.1 :: s.2) :=
  ⟨h.inOrder, h.fresh, h.recorded.cons fun _ => .of_eq rfl,
    fun d P among apart => h.stays d P among fun x mem => apart x (.tail _ mem)⟩

/-- What making a handler comes to: its entry could not be read and nothing changed, or the
handler is there. -/
theorem Handler.create_cases {id : String} {entry : ConfigEntry} {made : Option (Key .handler)}
    (h : Handler.kind.create id entry g = (made, g')) :
    (made = none ∧ g' = g ∧ ∃ problem, HandlerConfig.ofEntry id entry = .error problem) ∨
      g.create id entry = .ok g' ∧ made = some g.handlers.nextKey := by
  simp only [Handler.kind] at h
  cases created : g.create id entry with
  | error refused =>
    rw [created] at h
    cases h
    refine .inl ⟨rfl, rfl, ?_⟩
    cases read : HandlerConfig.ofEntry id entry with
    | error problem => exact ⟨problem, rfl⟩
    | ok config => simp [create, read, bind, Except.bind, pure, Except.pure] at created
  | ok g₁ =>
    rw [created] at h
    cases h
    exact .inr ⟨rfl, rfl⟩

/-- The same, written down. -/
theorem recorded_create_cases {id : String} {entry : ConfigEntry} {made : Option (Key .handler)}
    {s s' : DispatchGraph × List DispatchGraph}
    (h : Handler.kind.recorded.create id entry s = (made, s')) :
    (made = none ∧ s' = (s.1, s.1 :: s.2)) ∨
      ∃ g', s.1.create id entry = .ok g' ∧ made = some s.1.handlers.nextKey ∧
        s' = (g', g' :: s.2) := by
  rw [EntityKind.recorded_create] at h
  generalize eq : Handler.kind.create id entry s.1 = result at h
  obtain ⟨made', g'⟩ := result
  cases h
  rcases Handler.create_cases eq with ⟨rfl, rfl, -⟩ | ⟨created, rfl⟩
  · exact .inl ⟨rfl, rfl⟩
  · exact .inr ⟨g', created, rfl, rfl⟩

theorem failed_keeps {id : String} {entry : ConfigEntry} {s' : DispatchGraph × List DispatchGraph}
    (h : Kept asNamed before earlier registry s)
    (made : Handler.kind.recorded.create id entry s = (none, s')) :
    Kept asNamed before earlier registry s' := by
  rcases recorded_create_cases made with ⟨-, rfl⟩ | ⟨_, -, none, -⟩
  · exact h.unchanged
  · cases none

theorem Tracks.unused {id : String} (tracks : Tracks registry g)
    (new : registry.contains id = false) {h : Key .handler} {other : Handler}
      (found : g.handlers.get? h = some other) : other.id ≠ id := by
  obtain ⟨owned, known, -⟩ := tracks.owned found
  rintro rfl
  simp [Table.contains, known] at new

/-- What becomes of the graph and of the registry when a handler is made under a new id. -/
structure Newcomer (asNamed : Prop) (known : Registry (Key .handler)) (entry : ConfigEntry)
    (g g' : DispatchGraph) (handler : Handler) : Prop
    extends Becomes g.handlers.nextKey handler g g' where
  absent : g.handlers.get? g.handlers.nextKey = none
  found : g'.handlers.get? g.handlers.nextKey = some handler
  read : HandlerConfig.ofEntry handler.id entry = .ok handler.config
  portrait : g.Portrait handler.id entry handler
  programs : ∀ d, g'.programOf d = g.programOf d
  named : g'.BoundAsNamed handler
  fresh : ∀ d, d ∉ handler.bound → g.Fresh d → g'.Fresh d
  inOrder : ∀ file, InOrder asNamed (known.insert handler.id ⟨file, g.handlers.nextKey⟩) g'
  follows : ∀ d, Follows (g.memberIds d) (g'.memberIds d)

theorem InOrder.create {id : String} {entry : ConfigEntry} (inOrder : InOrder asNamed registry g)
    (new : registry.contains id = false) (created : g.create id entry = .ok g') :
    ∃ handler, handler.id = id ∧ Newcomer asNamed registry entry g g' handler := by
  obtain ⟨handler, rfl, becomes, named, fresh⟩ :=
    create_becomes inOrder.linked (fun found => inOrder.toTracks.unused new found) created
  obtain ⟨other, there, portrait, read, programs⟩ := create_portrait inOrder.linked created
  have found : g'.handlers.get? g.handlers.nextKey = some handler := by
    rw [becomes.handlers, if_pos rfl]
  obtain rfl : handler = other := Option.some.inj (found.symm.trans there)
  have absent := Store.get?_nextKey g.handlers
  have follows := becomes.follows inOrder.linked becomes.linked fun _ _ found' _ => by
    simp [absent] at found'
  exact ⟨handler, rfl, becomes, absent, found, read, portrait, programs, named, fresh,
    inOrder.insert becomes (by simp [absent]) fun _ => named, follows⟩

theorem Newcomer.own {entry : ConfigEntry} {handler : Handler}
    (newcomer : Newcomer asNamed registry entry g g' handler) (other : Handler)
    (there : g.handlers.get? g.handlers.nextKey = some other) : other.id = handler.id := by
  cases newcomer.absent.symm.trans there

theorem created_keeps {id file : String} {entry : ConfigEntry} {k : Key .handler}
    {s' : DispatchGraph × List DispatchGraph} (h : Kept asNamed before earlier registry s)
    (new : registry.contains id = false)
    (made : Handler.kind.recorded.create id entry s = (some k, s')) :
    Kept asNamed before earlier (registry.insert id ⟨file, (Handler.kind.recorded.activate k s').1⟩)
      (Handler.kind.recorded.activate k s').2 := by
  obtain ⟨g, states⟩ := s
  rcases recorded_create_cases made with ⟨none, -⟩ | ⟨g', created, isNext, rfl⟩
  · cases none
  · cases isNext
    obtain ⟨handler, rfl, newcomer⟩ := h.inOrder.create new created
    refine ⟨(newcomer.inOrder file).recompileEach _, fun d => ?_, ?_, ?_⟩
    · exact fresh_recompileBound newcomer.found fun apart => newcomer.fresh d apart (h.fresh d)
    · exact (h.recorded.cons newcomer.follows).cons fun d => .of_eq (memberIds_recompileEach ..)
    · exact (h.stays.cons newcomer.toEvolves).recompileEach _

/-- Leaving all dispatchers keeps everything but that handlers are bound as named. -/
theorem unbound_keeps {owned : Owned (Key .handler)} {id : String}
    (h : Kept asNamed before earlier registry s) (never : ¬ asNamed)
    (known : registry.get? id = some owned) :
    Kept asNamed before earlier registry (s.1.unbindAll owned.entity,
      s.1.unbindAll owned.entity :: s.2) := by
  obtain ⟨handler, found, rfl⟩ := h.inOrder.entities known
  obtain ⟨evolves, linked, fresh⟩ := unbindAll_evolves h.inOrder.linked found
  have settled := h.inOrder.settled found
  have becomes : Becomes owned.entity { handler with bound := [] } s.1
      (s.1.unbindAll owned.entity) :=
    ⟨evolves, linked, by simp, evolves.engine ▸ settled.own.congr rfl rfl, settled.configured⟩
  have own : ∀ other, s.1.handlers.get? owned.entity = some other → other.id = handler.id := by
    intro other found'
    cases found.symm.trans found'
    rfl
  have inOrder := h.inOrder.insert becomes own (fun is => absurd is never) owned.file
  rw [Table.insert_eq_self known] at inOrder
  refine ⟨inOrder, fun d => fresh d (h.fresh d), h.recorded.cons fun d => ?_, h.stays.cons evolves⟩
  refine becomes.follows h.inOrder.linked linked (fun other _ found' eq => ?_) d
  cases eq
  exact (own other found').symm

end Kept
end ScriptHost
