import Mathlib.Data.List.Basic
import ScriptHost.Dispatch.Binding
import ScriptHost.Proofs.Dispatch.Ranking
/-!
# The two sides of the dispatch graph

A dispatcher keeps the keys of its members and a handler those of the dispatchers that it is
bound to.

**What holds.** `Linked`: the two sides agree, neither says anything twice, members are there,
an id is registered for a dispatcher of that id, and no two handlers have one id.

**What changes.** `Moves`: every operation on a handler makes it another or lets it go, and
leaves all others alone. In a dispatcher's list of members it stays in its place, comes in at
the end or goes.

**Results.**
* `Moves.linked`: the two sides still agree afterwards.
* `Moves.follows`: the ids of a dispatcher's members keep their order, and one at most comes in,
  at the end.
-/
namespace ScriptHost.DispatchGraph

def idOf (g : DispatchGraph) (d : Key .dispatcher) : Option String :=
  (g.dispatchers.get? d).map (·.id)

def memberIds (g : DispatchGraph) (d : Key .dispatcher) : List String := (g.crewOf d).map (·.id)

theorem mem_memberIds {g : DispatchGraph} {d : Key .dispatcher} {id : String} :
    id ∈ g.memberIds d ↔ ∃ h ∈ g.membersOf d, ∃ handler, g.handlers.get? h = some handler ∧
      handler.id = id := by
  simp only [memberIds, List.mem_map, mem_crewOf]
  grind

theorem memberIds_eq (g : DispatchGraph) (d : Key .dispatcher) :
    g.memberIds d = (g.membersOf d).filterMap fun h => (g.handlers.get? h).map (·.id) := by
  rw [memberIds, crewOf, List.map_filterMap]

/-! ## What single operations change -/

section

variable (g : DispatchGraph) (d e : Key .dispatcher) (h : Key .handler)

@[simp] theorem engine_recompile : (g.recompile d).engine = g.engine := by
  unfold recompile
  split <;> rfl

@[simp] theorem handlers_recompile : (g.recompile d).handlers = g.handlers := by
  unfold recompile
  split <;> rfl

@[simp] theorem registry_recompile : (g.recompile d).registry = g.registry := by
  unfold recompile
  split <;> rfl

@[simp] theorem idOf_recompile : (g.recompile d).idOf e = g.idOf e := by
  unfold recompile
  split
  · rfl
  · by_cases same : e = d <;> simp [idOf, same, Function.comp_def]

@[simp] theorem membersOf_recompile : (g.recompile d).membersOf e = g.membersOf e := by
  unfold recompile
  split
  · rfl
  · by_cases same : e = d <;> simp [membersOf, same, Function.comp_def]

theorem get?_recompile_of_ne (ne : e ≠ d) :
    (g.recompile d).dispatchers.get? e = g.dispatchers.get? e := by
  unfold recompile
  split
  · rfl
  · simp [ne]

@[simp] theorem idOf_removeMember : (g.removeMember d h).idOf e = g.idOf e := by
  by_cases same : e = d <;> simp [removeMember, idOf, same, Function.comp_def]

@[simp] theorem idOf_addMember : (g.addMember d h).idOf e = g.idOf e := by
  by_cases same : e = d <;> simp [addMember, idOf, same, Function.comp_def]

theorem membersOf_removeMember : (g.removeMember d h).membersOf e =
    if e = d then (g.living (g.membersOf e)).filter (· != h) else g.membersOf e := by
  by_cases same : e = d
  · subst same
    cases found : g.dispatchers.get? e <;> simp [removeMember, membersOf, found, living]
  · simp [removeMember, membersOf, same]

theorem membersOf_addMember (known : g.idOf d ≠ none) : (g.addMember d h).membersOf e =
    if e = d then
      if h ∈ g.living (g.membersOf e) then g.living (g.membersOf e)
        else g.living (g.membersOf e) ++ [h]
    else g.membersOf e := by
  by_cases same : e = d
  · subst same
    cases found : g.dispatchers.get? e with
    | none => simp [idOf, found] at known
    | some dispatcher => simp [addMember, membersOf, found]
  · simp [addMember, membersOf, same]

end

/-- The same handlers and registry, and dispatchers that differ in members and programs only. -/
structure Framed (g g' : DispatchGraph) : Prop where
  engine : g'.engine = g.engine
  handlers : g'.handlers = g.handlers
  registry : g'.registry = g.registry
  ids : ∀ d, g'.idOf d = g.idOf d

namespace Framed

variable {g g' g'' : DispatchGraph}

theorem refl (g : DispatchGraph) : Framed g g := ⟨rfl, rfl, rfl, fun _ => rfl⟩

theorem trans (first : Framed g g') (second : Framed g' g'') : Framed g g'' where
  engine := second.engine.trans first.engine
  handlers := second.handlers.trans first.handlers
  registry := second.registry.trans first.registry
  ids d := (second.ids d).trans (first.ids d)

theorem recompile (g : DispatchGraph) (d : Key .dispatcher) : Framed g (g.recompile d) := by
  constructor <;> simp

theorem removeMember (g : DispatchGraph) (d : Key .dispatcher) (h : Key .handler) :
    Framed g (g.removeMember d h) :=
  ⟨rfl, rfl, rfl, fun _ => by simp⟩

theorem addMember (g : DispatchGraph) (d : Key .dispatcher) (h : Key .handler) :
    Framed g (g.addMember d h) :=
  ⟨rfl, rfl, rfl, fun _ => by simp⟩

end Framed

/-! ## Members that are there -/

/-- All members of dispatchers are there. -/
def Living (g : DispatchGraph) : Prop := ∀ d, ∀ h ∈ g.membersOf d, g.handlers.contains h

theorem Living.living_eq {g : DispatchGraph} (living : g.Living) (d : Key .dispatcher) :
    g.living (g.membersOf d) = g.membersOf d :=
  List.filter_eq_self.2 (living d)

/-! ## Agreement -/

structure Linked (g : DispatchGraph) : Prop where
  /-- An id is registered for a dispatcher of that id. -/
  registered : ∀ {id d}, g.registry.get? id = some d → g.idOf d = some id
  members_nodup : ∀ d, (g.membersOf d).Nodup
  bound_nodup : ∀ {h handler}, g.handlers.get? h = some handler → handler.bound.Nodup
  /-- The members of a dispatcher are the handlers that are bound to it. -/
  mem_iff : ∀ {d h}, h ∈ g.membersOf d ↔ ∃ handler, g.handlers.get? h = some handler ∧
    d ∈ handler.bound
  /-- A handler is known by its id. -/
  distinct : ∀ {h h' handler handler'}, g.handlers.get? h = some handler →
    g.handlers.get? h' = some handler' →
    handler.id = handler'.id → h = h'

/-- The members of a dispatcher are the handlers that are bound to it, whatever else holds. -/
def Mirrored (g : DispatchGraph) : Prop :=
  ∀ d h, h ∈ g.membersOf d ↔ ∃ handler, g.handlers.get? h = some handler ∧ d ∈ handler.bound

theorem Linked.mirrored {g : DispatchGraph} (linked : g.Linked) : g.Mirrored :=
  fun _ _ => linked.mem_iff

namespace Mirrored

variable {g : DispatchGraph} {k : Key .handler} {handler : Handler}

theorem living (mirrored : g.Mirrored) : g.Living := by
  intro d h mem
  obtain ⟨handler, found, -⟩ := (mirrored d h).1 mem
  simp [Store.contains, found]

theorem mem_bound (mirrored : g.Mirrored) (found : g.handlers.get? k = some handler)
    (d : Key .dispatcher) : k ∈ g.membersOf d ↔ d ∈ handler.bound := by
  rw [mirrored]
  simp [found]

theorem not_mem (mirrored : g.Mirrored) (absent : g.handlers.get? k = none)
    (d : Key .dispatcher) : k ∉ g.membersOf d := by
  rw [mirrored]
  simp [absent]

end Mirrored

theorem Linked.living {g : DispatchGraph} (linked : g.Linked) : g.Living := linked.mirrored.living

/-- A list with a key in it, at the end if it was not there, or without it. -/
def placed (k : Key .handler) (inside : Bool) (list : List (Key .handler)) : List (Key .handler) :=
  if inside then if k ∈ list then list else list ++ [k] else list.filter (· != k)

theorem filter_of_not_mem {k : Key .handler} {list : List (Key .handler)} (h : k ∉ list) :
    list.filter (· != k) = list :=
  List.filter_eq_self.2 fun j mem => by simpa using fun same : j = k => h (same ▸ mem)

theorem mem_placed {k h : Key .handler} {inside : Bool} {list : List (Key .handler)} :
    h ∈ placed k inside list ↔ if h = k then inside = true else h ∈ list := by
  unfold placed
  grind

theorem nodup_placed {k : Key .handler} {inside : Bool} {list : List (Key .handler)}
    (h : list.Nodup) :
    (placed k inside list).Nodup := by
  unfold placed
  split
  · split
    · exact h
    · rename_i new
      exact List.nodup_append.2 ⟨h, by simp, by grind⟩
  · exact h.filter _

/-- A key that is in a list exactly if it should be leaves the list as it is. -/
theorem placed_eq_self {k : Key .handler} {inside : Bool} {list : List (Key .handler)}
    (h : k ∈ list ↔ inside = true) : placed k inside list = list := by
  unfold placed
  split
  · rename_i isInside
    exact if_pos (h.2 isInside)
  · rename_i outside
    exact filter_of_not_mem (h.not.2 outside)

/-- Whether a handler, if there is one, is bound to a dispatcher. -/
def bindsTo (handler : Option Handler) (d : Key .dispatcher) : Bool :=
  handler.any (·.bound.contains d)

/-- A handler becomes another or goes, in the graph and in its dispatchers; all others stay as
they are. -/
structure Moves (k : Key .handler) (after : Option Handler) (g g' : DispatchGraph) : Prop where
  engine : g'.engine = g.engine
  registry : g'.registry = g.registry
  ids : ∀ d, g'.idOf d = g.idOf d
  handlers : ∀ h, g'.handlers.get? h = if h = k then after else g.handlers.get? h
  members : ∀ d, g'.membersOf d = placed k (bindsTo after d) (g.membersOf d)

/-- What a handler may become: one with no dispatcher twice and with an id that no other has. -/
structure Fits (g : DispatchGraph) (k : Key .handler) (handler : Handler) : Prop where
  bound_nodup : handler.bound.Nodup
  fresh : ∀ {h other}, h ≠ k → g.handlers.get? h = some other → other.id ≠ handler.id

/-- One list of ids after another: some of them are still there, in order, and one at most comes
in, at the end. -/
def Follows (before after : List String) : Prop :=
  ∃ kept new, after = kept ++ new ∧ kept.Sublist before ∧ new.length ≤ 1 ∧ ∀ id ∈ new, id ∉ before

namespace Moves

variable {k : Key .handler} {after : Option Handler} {g g' : DispatchGraph}

theorem linked (moves : Moves k after g g') (linked : g.Linked)
    (fits : ∀ handler ∈ after, g.Fits k handler) : g'.Linked where
  registered found := by
    rw [moves.ids]
    exact linked.registered (moves.registry ▸ found)
  members_nodup d := by
    rw [moves.members]
    exact nodup_placed (linked.members_nodup d)
  bound_nodup {h handler} found := by
    rw [moves.handlers] at found
    split at found
    · exact (fits handler found).bound_nodup
    · exact linked.bound_nodup found
  mem_iff {d h} := by
    rw [moves.members, mem_placed, moves.handlers]
    split
    · cases after <;> simp [bindsTo]
    · exact linked.mem_iff
  distinct {h h' handler handler'} found found' same := by
    rw [moves.handlers] at found found'
    split at found <;> split at found'
    · simp_all
    · rename_i isK notK
      exact absurd same.symm ((fits handler found).fresh notK found')
    · rename_i notK isK
      exact absurd same ((fits handler' found').fresh notK found)
    · exact linked.distinct found found' same

theorem follows (moves : Moves k after g g') (linked : g.Linked) (linked' : g'.Linked)
    (same : ∀ handler handler', g.handlers.get? k = some handler → after = some handler' →
      handler'.id = handler.id)
    (d : Key .dispatcher) : Follows (g.memberIds d) (g'.memberIds d) := by
  have others {h : Key .handler} (ne : h ≠ k) :
      (g'.handlers.get? h).map (·.id) = (g.handlers.get? h).map (·.id) := by
    rw [moves.handlers, if_neg ne]
  rw [memberIds_eq, memberIds_eq, moves.members, placed]
  split
  · rename_i inside
    obtain ⟨handler', rfl⟩ : ∃ handler', after = some handler' := by
      cases after with
      | none => simp [bindsTo] at inside
      | some handler' => exact ⟨handler', rfl⟩
    split
    · -- the handler stays in its place
      rename_i member
      refine ⟨_, [], (List.append_nil _).symm, ?_, by simp, by simp⟩
      rw [List.filterMap_congr fun h mem => ?_]
      by_cases isK : h = k
      · obtain ⟨handler, found, -⟩ := linked.mem_iff.1 member
        simp [isK, moves.handlers, found, same handler handler' found rfl]
      · exact others isK
    · -- the handler comes in at the end
      rename_i new
      refine ⟨_, [handler'.id], ?_, .refl _, by simp, ?_⟩
      · rw [List.filterMap_append, List.filterMap_congr fun h mem => others fun isK =>
          new (isK ▸ mem)]
        simp [moves.handlers]
      · intro id mem taken
        rw [List.mem_singleton] at mem
        obtain ⟨h, member, eq⟩ := List.mem_filterMap.1 taken
        obtain ⟨other, found, sameId⟩ := Option.map_eq_some_iff.1 eq
        have notK : h ≠ k := fun isK => new (isK ▸ member)
        have found' : g'.handlers.get? h = some other := by rw [moves.handlers, if_neg notK, found]
        have own : g'.handlers.get? k = some handler' := by rw [moves.handlers, if_pos rfl]
        exact notK (linked'.distinct found' own (sameId.trans mem))
  · -- the handler goes
    refine ⟨_, [], (List.append_nil _).symm, ?_, by simp, by simp⟩
    rw [List.filterMap_congr fun h mem => others (by simpa using (List.mem_filter.1 mem).2)]
    exact List.filter_sublist.filterMap _

end Moves

end ScriptHost.DispatchGraph
