import ScriptHost.Proofs.Dispatch.Programs
/-!
# Leaving and joining dispatchers

Binding a handler anew goes through the dispatchers that it is bound to, leaves those that its
configuration no longer names, and then joins the registered ones that it names and is not bound
to yet. Nothing but members and programs of dispatchers changes on the way.

**Results.**
* `Framed.leaveUnnamed`, `Framed.joinNamed`: nothing else changes.
* `leaveUnnamed_members`: the handler is no longer a member of the dispatchers that are not named,
  and the others are kept.
* `Joining.joinNamed_members`: it becomes a member, once, of the registered dispatchers that are
  named.
* `Fresh.leaveUnnamed`, `Fresh.joinNamed`: with `reorder` the programs of all dispatchers
  concerned are fresh then.
* `Among.leaveUnnamed`, `Among.joinNamed`: programs are only replaced by such of the members at
  that moment.
-/
namespace ScriptHost.DispatchGraph

variable {g : DispatchGraph} {d e : Key .dispatcher} {k : Key .handler} {P : String → Prop}

/-! ## Leaving one -/

theorem Framed.leave (g : DispatchGraph) (k : Key .handler) (d : Key .dispatcher) :
    Framed g (g.leave k d) :=
  (Framed.removeMember g d k).trans (.recompile ..)

theorem membersOf_leave (living : g.Living) :
    (g.leave k d).membersOf e = if e = d then (g.membersOf e).filter (· != k)
      else g.membersOf e := by
  rw [DispatchGraph.leave, membersOf_recompile, membersOf_removeMember, living.living_eq]

theorem Living.leave (living : g.Living) (k : Key .handler) (d : Key .dispatcher) :
    (g.leave k d).Living := by
  intro e h mem
  rw [(Framed.leave g k d).handlers]
  rw [membersOf_leave living] at mem
  split at mem
  · exact living e h (List.mem_filter.1 mem).1
  · exact living e h mem

theorem fresh_leave (g : DispatchGraph) (k : Key .handler) (d : Key .dispatcher) :
    (g.leave k d).Fresh d :=
  fresh_recompile _ d

theorem Fresh.leave (fresh : g.Fresh e) (k : Key .handler) (d : Key .dispatcher) :
    (g.leave k d).Fresh e := by
  by_cases same : e = d
  · exact same ▸ fresh_leave g k d
  · have members : (g.removeMember d k).membersOf e = g.membersOf e := by
      rw [membersOf_removeMember, if_neg same]
    have kept : (g.removeMember d k).Fresh e :=
      fresh.of_same rfl (by simp) (by simp) (sourceOf_of_framed (.removeMember g d k) members)
    exact kept.recompile d

theorem Among.leave (among : g.Among e P) (k : Key .handler) (d : Key .dispatcher) :
    (g.leave k d).Among e P := by
  have removed : (g.removeMember d k).Among e P := by
    refine among.of_same (among.own.of_framed (.removeMember g d k)) rfl (by simp) fun id mem =>
      among.members id ?_
    obtain ⟨h, member, handler, found, rfl⟩ := mem_memberIds.1 mem
    refine mem_memberIds.2 ⟨h, ?_, handler, found, rfl⟩
    rw [membersOf_removeMember] at member
    split at member
    · exact (List.mem_filter.1 (List.mem_filter.1 member).1).1
    · exact member
  exact removed.recompile d

/-! ## Leaving several -/

theorem Framed.leaveEach (k : Key .handler) (ds : List (Key .dispatcher)) : ∀ g : DispatchGraph,
    Framed g (ds.foldl (DispatchGraph.leave k) g) := by
  induction ds with
  | nil => exact Framed.refl
  | cons d rest ih => exact fun g => (Framed.leave g k d).trans (ih (g.leave k d))

theorem membersOf_leaveEach (k : Key .handler) (ds : List (Key .dispatcher)) :
    ∀ {g : DispatchGraph}, g.Living →
    (ds.foldl (DispatchGraph.leave k) g).membersOf e =
      if e ∈ ds then (g.membersOf e).filter (· != k) else g.membersOf e := by
  induction ds with
  | nil => simp
  | cons d rest ih =>
    intro g living
    rw [List.foldl_cons, ih (living.leave k d), membersOf_leave living]
    by_cases same : e = d <;> by_cases later : e ∈ rest <;> simp [same, later]

theorem Fresh.leaveEach (k : Key .handler) (ds : List (Key .dispatcher)) : ∀ {g : DispatchGraph},
    g.Fresh e ∨ e ∈ ds → (ds.foldl (DispatchGraph.leave k) g).Fresh e := by
  induction ds with
  | nil => simp
  | cons d rest ih =>
    intro g h
    refine ih ?_
    rcases h with fresh | mem
    · exact .inl (fresh.leave k d)
    · rcases List.mem_cons.1 mem with rfl | mem
      · exact .inl (fresh_leave g k e)
      · exact .inr mem

theorem Among.leaveEach (k : Key .handler) (ds : List (Key .dispatcher)) : ∀ {g : DispatchGraph},
    g.Among e P → (ds.foldl (DispatchGraph.leave k) g).Among e P := by
  induction ds with
  | nil => exact id
  | cons d rest ih => exact fun among => ih (among.leave k d)

/-! ## Leaving the unnamed -/

/-- Whether a dispatcher is there and has one of some ids. -/
def isNamed (g : DispatchGraph) (named : List String) (d : Key .dispatcher) : Bool :=
  (g.idOf d).any named.contains

theorem isNamed_of_framed {g' : DispatchGraph} (framed : Framed g g') (named : List String)
    (d : Key .dispatcher) : g'.isNamed named d = g.isNamed named d := by
  rw [isNamed, isNamed, framed.ids]

/-- The program of a dispatcher is replaced if asked for. -/
def refreshed (g : DispatchGraph) (reorder : Bool) (d : Key .dispatcher) : DispatchGraph :=
  if reorder then g.recompile d else g

theorem Framed.refreshed (g : DispatchGraph) (reorder : Bool) (d : Key .dispatcher) :
    Framed g (g.refreshed reorder d) := by
  unfold DispatchGraph.refreshed
  split
  · exact .recompile g d
  · exact .refl g

@[simp] theorem membersOf_refreshed (g : DispatchGraph) (reorder : Bool) (d e : Key .dispatcher) :
    (g.refreshed reorder d).membersOf e = g.membersOf e := by
  unfold refreshed
  split <;> simp

theorem Fresh.refreshed (fresh : g.Fresh e) (reorder : Bool) (d : Key .dispatcher) :
    (g.refreshed reorder d).Fresh e := by
  unfold DispatchGraph.refreshed
  split
  · exact fresh.recompile d
  · exact fresh

theorem Among.refreshed (among : g.Among e P) (reorder : Bool) (d : Key .dispatcher) :
    (g.refreshed reorder d).Among e P := by
  unfold DispatchGraph.refreshed
  split
  · exact among.recompile d
  · exact among

section Leaving

variable {named : List String} {reorder : Bool}

/-- One step of leaving: a dispatcher that is gone is passed over, a named one is kept, another
is left. -/
theorem leaveUnnamed_cons (g : DispatchGraph) (d : Key .dispatcher)
    (rest : List (Key .dispatcher)) : leaveUnnamed k named reorder g (d :: rest) =
      if g.isNamed named d then
        ((leaveUnnamed k named reorder (g.refreshed reorder d) rest).1,
          d :: (leaveUnnamed k named reorder (g.refreshed reorder d) rest).2)
      else if g.idOf d = none then leaveUnnamed k named reorder g rest
      else leaveUnnamed k named reorder (g.leave k d) rest := by
  rw [leaveUnnamed, isNamed, idOf]
  cases g.dispatchers.get? d with
  | none => simp
  | some dispatcher => simp only [Option.map_some, Option.any_some, reduceCtorEq,
    if_false, refreshed]

theorem Framed.leaveUnnamed (ds : List (Key .dispatcher)) : ∀ g : DispatchGraph,
    Framed g (leaveUnnamed k named reorder g ds).1 := by
  induction ds with
  | nil => exact Framed.refl
  | cons d rest ih =>
    intro g
    rw [leaveUnnamed_cons]
    split
    · exact (Framed.refreshed g reorder d).trans (ih _)
    · split
      · exact ih g
      · exact (Framed.leave g k d).trans (ih _)

theorem leaveUnnamed_members (ds : List (Key .dispatcher)) : ∀ {g : DispatchGraph}, g.Living →
    (leaveUnnamed k named reorder g ds).2 = ds.filter (g.isNamed named) ∧
      ∀ e, (leaveUnnamed k named reorder g ds).1.membersOf e =
        if e ∈ ds ∧ g.isNamed named e = false then (g.membersOf e).filter (· != k)
          else g.membersOf e := by
  induction ds with
  | nil => exact fun _ => ⟨rfl, by simp [leaveUnnamed]⟩
  | cons d rest ih =>
    intro g living
    rw [leaveUnnamed_cons]
    split
    · rename_i isNamed
      have first := Framed.refreshed g reorder d
      have living' : (g.refreshed reorder d).Living := by
        intro e h mem
        rw [first.handlers]
        exact living e h (by simpa using mem)
      obtain ⟨kept, members⟩ := ih living'
      refine ⟨?_, fun e => ?_⟩
      · simp only [kept, List.filter_cons, isNamed, if_true]
        congr 1
        exact List.filter_congr fun e _ => isNamed_of_framed first named e
      · rw [members, isNamed_of_framed first, membersOf_refreshed]
        by_cases same : e = d <;> simp [same, isNamed]
    · rename_i notNamed
      have notNamed : g.isNamed named d = false := by simpa using notNamed
      split
      · rename_i missing
        obtain ⟨kept, members⟩ := ih living
        refine ⟨by simp [kept, notNamed], fun e => ?_⟩
        have none : g.membersOf d = [] := by
          cases found : g.dispatchers.get? d <;> simp_all [membersOf, idOf]
        rw [members]
        by_cases same : e = d <;> simp [same, none]
      · have first := Framed.leave g k d
        obtain ⟨kept, members⟩ := ih (living.leave k d)
        refine ⟨?_, fun e => ?_⟩
        · rw [kept, List.filter_cons, notNamed]
          exact List.filter_congr fun e _ => isNamed_of_framed first named e
        · rw [members, isNamed_of_framed first, membersOf_leave living]
          by_cases same : e = d <;> by_cases later : e ∈ rest <;> simp [same, later, notNamed]

theorem Fresh.leaveUnnamed (ds : List (Key .dispatcher)) : ∀ {g : DispatchGraph},
    g.Fresh e ∨ (e ∈ ds ∧ (reorder ∨ g.isNamed named e = false)) →
      (leaveUnnamed k named reorder g ds).1.Fresh e := by
  induction ds with
  | nil => simp [DispatchGraph.leaveUnnamed]
  | cons d rest ih =>
    intro g h
    rw [leaveUnnamed_cons]
    split
    · rename_i isNamed
      refine ih ?_
      rw [isNamed_of_framed (.refreshed g reorder d)]
      rcases h with fresh | ⟨mem, asked⟩
      · exact .inl (fresh.refreshed reorder d)
      · rcases List.mem_cons.1 mem with rfl | mem
        · have asked : reorder := by simpa [isNamed] using asked
          exact .inl (by simpa [DispatchGraph.refreshed, asked] using fresh_recompile g e)
        · exact .inr ⟨mem, asked⟩
    · split
      · rename_i missing
        refine ih ?_
        rcases h with fresh | ⟨mem, asked⟩
        · exact .inl fresh
        · rcases List.mem_cons.1 mem with rfl | mem
          · exact .inl fun known => absurd missing known
          · exact .inr ⟨mem, asked⟩
      · refine ih ?_
        rw [isNamed_of_framed (.leave g k d)]
        rcases h with fresh | ⟨mem, asked⟩
        · exact .inl (fresh.leave k d)
        · rcases List.mem_cons.1 mem with rfl | mem
          · exact .inl (fresh_leave g k e)
          · exact .inr ⟨mem, asked⟩

theorem Among.leaveUnnamed (ds : List (Key .dispatcher)) : ∀ {g : DispatchGraph},
    g.Among e P → (leaveUnnamed k named reorder g ds).1.Among e P := by
  induction ds with
  | nil => exact id
  | cons d rest ih =>
    intro g among
    rw [leaveUnnamed_cons]
    split
    · exact ih (among.refreshed reorder d)
    · split
      · exact ih among
      · exact ih (among.leave k d)

end Leaving

/-! ## Joining the named -/

/-- What holds while a handler joins dispatchers: it is a member of those that it joined so far. -/
structure Joining (k : Key .handler) (g : DispatchGraph)
    (bound : List (Key .dispatcher)) : Prop where
  registered : ∀ {id d}, g.registry.get? id = some d → g.idOf d = some id
  living : g.Living
  alive : g.handlers.contains k
  mem_iff : ∀ {d}, k ∈ g.membersOf d ↔ d ∈ bound
  known : ∀ {d}, d ∈ bound → ∃ id, g.registry.get? id = some d
  nodup : bound.Nodup

section Joining

variable {bound : List (Key .dispatcher)} {reorder : Bool}

theorem Framed.join (g : DispatchGraph) (k : Key .handler) (reorder : Bool) (d : Key .dispatcher) :
    Framed g (g.join k reorder d) :=
  (Framed.addMember g d k).trans (.refreshed _ reorder d)

theorem Joining.membersOf_join (joining : Joining k g bound) {id : String}
    (found : g.registry.get? id = some d) (new : d ∉ bound) (reorder : Bool) (e : Key .dispatcher) :
    (g.join k reorder d).membersOf e = if e = d then g.membersOf e ++ [k] else g.membersOf e := by
  have known : g.idOf d ≠ none := by rw [joining.registered found]; simp
  have outside : k ∉ g.membersOf d := fun mem => new (joining.mem_iff.1 mem)
  change ((g.addMember d k).refreshed reorder d).membersOf e = _
  rw [membersOf_refreshed, membersOf_addMember g d e k known, joining.living.living_eq]
  split
  · rename_i same
    rw [if_neg (same ▸ outside)]
  · rfl

theorem Joining.join (joining : Joining k g bound) {id : String}
    (found : g.registry.get? id = some d) (new : d ∉ bound) (reorder : Bool) :
    Joining k (g.join k reorder d) (bound ++ [d]) := by
  have framed := Framed.join g k reorder d
  have members := joining.membersOf_join found new reorder
  constructor
  · intro id d found
    rw [framed.ids]
    exact joining.registered (framed.registry ▸ found)
  · intro e h mem
    rw [framed.handlers]
    rw [members] at mem
    split at mem
    · rcases List.mem_append.1 mem with mem | mem
      · exact joining.living e h mem
      · exact List.mem_singleton.1 mem ▸ joining.alive
    · exact joining.living e h mem
  · rw [framed.handlers]
    exact joining.alive
  · intro e
    rw [members]
    split
    · rename_i same
      simp [same]
    · rename_i other
      simp [other, joining.mem_iff]
  · intro e mem
    rw [framed.registry]
    rcases List.mem_append.1 mem with mem | mem
    · exact joining.known mem
    · exact ⟨id, List.mem_singleton.1 mem ▸ found⟩
  · exact List.nodup_append.2 ⟨joining.nodup, by simp, by grind⟩

theorem Joining.isBoundTo_iff (joining : Joining k g bound) {id : String}
    (found : g.registry.get? id = some d) : g.isBoundTo bound id ↔ d ∈ bound := by
  have id? (e : Key .dispatcher) : (g.dispatchers.get? e).any (·.id == id) ↔
      g.idOf e = some id := by
    cases known : g.dispatchers.get? e <;> simp [idOf, known]
  simp only [isBoundTo, List.any_eq_true, id?]
  constructor
  · rintro ⟨e, mem, hasId⟩
    obtain ⟨other, found'⟩ := joining.known mem
    have same : other = id := by simpa [joining.registered found'] using hasId
    subst same
    rwa [Option.some.inj (found.symm.trans found')]
  · exact fun mem => ⟨d, mem, joining.registered found⟩

/-- One step of joining: an id is passed over if it is not registered or stands for a dispatcher
that was joined. -/
theorem Joining.joinNamed_cons (joining : Joining k g bound) (reorder : Bool) (id : String)
    (rest : List String) : joinNamed k reorder g bound (id :: rest) =
      match g.registry.get? id with
      | none => joinNamed k reorder g bound rest
      | some d =>
        if d ∈ bound then joinNamed k reorder g bound rest
        else joinNamed k reorder (g.join k reorder d) (bound ++ [d]) rest := by
  rw [joinNamed]
  cases found : g.registry.get? id with
  | none => simp
  | some d => simp only [joining.isBoundTo_iff found]

theorem Framed.joinNamed (names : List String) : ∀ (g : DispatchGraph)
    (bound : List (Key .dispatcher)), Framed g (joinNamed k reorder g bound names).1 := by
  induction names with
  | nil => exact fun g _ => .refl g
  | cons id rest ih =>
    intro g bound
    unfold DispatchGraph.joinNamed
    split
    · exact ih g bound
    · split
      · exact ih g bound
      · exact (Framed.join g k reorder _).trans (ih _ _)

theorem Joining.joinNamed_members (names : List String) : ∀ {g : DispatchGraph}
    {bound : List (Key .dispatcher)},
    Joining k g bound →
      let r := joinNamed k reorder g bound names
      r.2.Nodup ∧
        (∀ e, e ∈ r.2 ↔ e ∈ bound ∨ ∃ id ∈ names, g.registry.get? id = some e) ∧
        ∀ e, r.1.membersOf e = if e ∈ r.2 ∧ e ∉ bound then g.membersOf e ++ [k]
          else g.membersOf e := by
  induction names with
  | nil => exact fun joining => ⟨joining.nodup, by simp [joinNamed], by simp [joinNamed]⟩
  | cons id rest ih =>
    intro g bound joining
    rw [joining.joinNamed_cons]
    split
    · rename_i missing
      obtain ⟨nodup, mem_iff, members⟩ := ih joining
      exact ⟨nodup, by simp [mem_iff, missing], members⟩
    · rename_i d found
      split
      · rename_i old
        obtain ⟨nodup, mem_iff, members⟩ := ih joining
        refine ⟨nodup, fun e => ?_, members⟩
        simp only [mem_iff, List.mem_cons, exists_eq_or_imp, found, Option.some.injEq]
        grind
      · rename_i new
        have first := Framed.join g k reorder d
        obtain ⟨nodup, mem_iff, members⟩ := ih (joining.join found new reorder)
        refine ⟨nodup, fun e => ?_, fun e => ?_⟩
        · rw [mem_iff, first.registry]
          simp only [List.mem_append, List.mem_cons, exists_eq_or_imp, found, Option.some.injEq]
          grind
        · rw [members, joining.membersOf_join found new]
          by_cases same : e = d
          · subst same
            simp [mem_iff, new]
          · simp [same]

theorem mem_membersOf_addMember {h : Key .handler} (mem : h ∈ (g.addMember d k).membersOf e) :
    h ∈ g.membersOf e ∨ (e = d ∧ h = k) := by
  by_cases same : e = d
  · cases found : g.dispatchers.get? d with
    | none => simp [addMember, membersOf, same, found] at mem
    | some dispatcher =>
      simp only [addMember, membersOf, same, found, living, Store.get?_modify, if_true,
        Option.map_some,
        Option.getD_some] at mem ⊢
      grind
  · exact .inl (by simpa [addMember, membersOf, same] using mem)

theorem Fresh.join (fresh : g.Fresh e) (k : Key .handler) (h : reorder ∨ e ≠ d) :
    (g.join k reorder d).Fresh e := by
  by_cases same : e = d
  · have asked : reorder := h.resolve_right (not_not.2 same)
    simpa [DispatchGraph.join, asked, same] using fresh_recompile (g.addMember d k) d
  · have members : (g.addMember d k).membersOf e = g.membersOf e := by
      simp [addMember, membersOf, same]
    have kept : (g.addMember d k).Fresh e :=
      fresh.of_same rfl (by simp) (by simp) (sourceOf_of_framed (.addMember g d k) members)
    exact kept.refreshed reorder d

theorem Among.join (among : g.Among e P)
    (h : e = d → ∀ handler, g.handlers.get? k = some handler → P handler.id) :
    (g.join k reorder d).Among e P := by
  have added : (g.addMember d k).Among e P := by
    refine among.of_same (among.own.of_framed (.addMember g d k)) rfl (by simp) fun id mem => ?_
    obtain ⟨j, member, handler, found, rfl⟩ := mem_memberIds.1 mem
    rcases mem_membersOf_addMember member with old | ⟨same, rfl⟩
    · exact among.members _ (mem_memberIds.2 ⟨j, old, handler, found, rfl⟩)
    · exact h same handler found
  exact added.refreshed reorder d

theorem Joining.mem_joinNamed {names : List String} (joining : Joining k g bound)
    (mem : d ∈ bound) : d ∈ (DispatchGraph.joinNamed k reorder g bound names).2 :=
  ((joining.joinNamed_members names).2.1 d).2 (.inl mem)

theorem Fresh.joinNamed (names : List String) : ∀ {g : DispatchGraph}
    {bound : List (Key .dispatcher)},
    Joining k g bound → g.Fresh e →
      (reorder ∨ (e ∈ (joinNamed k reorder g bound names).2 → e ∈ bound)) →
      (joinNamed k reorder g bound names).1.Fresh e := by
  induction names with
  | nil => exact fun _ fresh _ => fresh
  | cons id rest ih =>
    intro g bound joining fresh
    rw [joining.joinNamed_cons]
    split
    · exact ih joining fresh
    · rename_i d found
      split
      · exact ih joining fresh
      · rename_i new
        intro h
        have joining' := joining.join found new reorder
        have joined : d ∈ (DispatchGraph.joinNamed k reorder (g.join k reorder d)
            (bound ++ [d]) rest).2 := joining'.mem_joinNamed (by simp)
        have apart : reorder ∨ e ≠ d := h.imp_right fun old same => new (same ▸ old (same ▸ joined))
        refine ih joining' (fresh.join k apart) (h.imp_right fun old mem =>
          List.mem_append_left _ (old mem))

theorem Among.joinNamed (names : List String) : ∀ {g : DispatchGraph}
    {bound : List (Key .dispatcher)},
    Joining k g bound → g.Among e P →
      (e ∈ (joinNamed k reorder g bound names).2 → e ∉ bound →
        ∀ handler, g.handlers.get? k = some handler → P handler.id) →
      (joinNamed k reorder g bound names).1.Among e P := by
  induction names with
  | nil => exact fun _ among _ => among
  | cons id rest ih =>
    intro g bound joining among
    rw [joining.joinNamed_cons]
    split
    · exact ih joining among
    · rename_i d found
      split
      · exact ih joining among
      · rename_i new
        intro h
        have joining' := joining.join found new reorder
        have joined : d ∈ (DispatchGraph.joinNamed k reorder (g.join k reorder d)
            (bound ++ [d]) rest).2 := joining'.mem_joinNamed (by simp)
        refine ih joining' (among.join fun same =>
          h (same ▸ joined) (same ▸ new)) fun mem notBound => ?_
        rw [(Framed.join g k reorder d).handlers]
        exact h mem fun old => notBound (List.mem_append_left _ old)

end Joining

end ScriptHost.DispatchGraph
