import Mathlib.Data.List.Nodup
import ScriptHost.Proofs.Dispatch.Handling
import ScriptHost.Proofs.Project.Refilling
/-!
# Handlers and dispatchers in pairs

A handler can outlive the registration of a dispatcher that it is bound to, and two handlers can
have one id. Still the two sides of a dispatch graph agree.

**What holds.** `Paired`: the members of a dispatcher are the handlers bound to it, none twice, and
a handler is bound to dispatchers that are there, no two of which have one id.

**What is watched.** `Watched`: a graph together with the dispatchers whose programs were to be
replaced on the way. `Watched.graph_rebind`: who watches changes nothing.

**Results.**
* `Paired.rebind`: what comes of binding a handler of such a graph anew, as `Reconciled` says.
* `Reconciled.moves`: it leaves and joins dispatchers, and all others stay as they are.
* `Reconciled.again`: to bind it anew once more comes to nothing.
-/
namespace ScriptHost

theorem Store.find?_of_mem {α : Type} {entries : List (Nat × α)} {e : Nat × α}
    (ascending : entries.Pairwise fun a b => a.1 < b.1) (mem : e ∈ entries) :
    Store.find? e.1 entries = some e.2 := by
  induction entries with
  | nil => cases mem
  | cons head rest ih =>
    obtain ⟨first, later⟩ := List.pairwise_cons.1 ascending
    rw [Store.find?_cons]
    rcases List.mem_cons.1 mem with rfl | mem
    · rw [if_pos rfl]
    · rw [if_neg (Nat.ne_of_lt (first e mem)), ih later mem]

theorem Store.modify_eq_self {kind : KeyKind} {α : Type} {s : Store kind α} {key : Key kind}
    {f : α → α} (same : ∀ value, s.get? key = some value → f value = value) :
    s.modify key f = s := by
  have entries : (s.modify key f).entries = s.entries := by
    refine (List.map_congr_left fun e mem => ?_).trans (List.map_id _)
    split
    · rename_i isKey
      have found : s.get? key = some e.2 := by
        rw [Store.get?, ← isKey, Store.find?_of_mem s.ascending mem]
      rw [same e.2 found, id]
    · rfl
  cases s
  simpa only [Store.modify, Store.mk.injEq, and_true] using entries

namespace DispatchGraph

variable {g g' : DispatchGraph} {d e : Key .dispatcher} {k : Key .handler} {handler : Handler}
  {reorder : Bool} {named names : List String}

/-! ## Pairs -/

/-- Dispatchers that are there, no two of one id. -/
structure Apart (g : DispatchGraph) (bound : List (Key .dispatcher)) : Prop where
  known : ∀ d ∈ bound, g.idOf d ≠ none
  distinct : (bound.map g.idOf).Nodup

/-- Both sides say the same, nothing twice. A dispatcher may no longer be registered, and two
handlers may have one id. -/
structure Paired (g : DispatchGraph) : Prop where
  registered : ∀ {id d}, g.registry.get? id = some d → g.idOf d = some id
  members_nodup : ∀ d, (g.membersOf d).Nodup
  mem_iff : ∀ {d h}, h ∈ g.membersOf d ↔ ∃ handler, g.handlers.get? h = some handler ∧
    d ∈ handler.bound
  apart : ∀ {h handler}, g.handlers.get? h = some handler → g.Apart handler.bound

theorem Apart.congr {bound : List (Key .dispatcher)} (apart : g.Apart bound)
    (ids : ∀ d ∈ bound, g'.idOf d = g.idOf d) : g'.Apart bound where
  known d mem := by
    rw [ids d mem]
    exact apart.known d mem
  distinct := by
    rw [List.map_congr_left ids]
    exact apart.distinct

theorem Apart.nodup {bound : List (Key .dispatcher)} (apart : g.Apart bound) : bound.Nodup :=
  List.Nodup.of_map g.idOf apart.distinct

theorem Apart.nil (g : DispatchGraph) : g.Apart [] := ⟨by simp, .nil⟩

theorem Apart.filter {bound : List (Key .dispatcher)} (apart : g.Apart bound)
    (p : Key .dispatcher → Bool) : g.Apart (bound.filter p) :=
  ⟨fun d mem => apart.known d (List.mem_filter.1 mem).1,
    apart.distinct.sublist (List.filter_sublist.map _)⟩

namespace Paired

theorem mirrored (paired : g.Paired) : g.Mirrored := fun _ _ => paired.mem_iff

theorem living (paired : g.Paired) : g.Living := paired.mirrored.living

theorem of_framed (paired : g.Paired) (framed : Framed g g')
    (members : ∀ d, g'.membersOf d = g.membersOf d) : g'.Paired where
  registered {id d} found := by
    rw [framed.ids]
    exact paired.registered (framed.registry ▸ found)
  members_nodup d := by
    rw [members]
    exact paired.members_nodup d
  mem_iff {d h} := by
    rw [members, framed.handlers]
    exact paired.mem_iff
  apart found := (paired.apart (framed.handlers ▸ found)).congr fun d _ => framed.ids d

theorem registers (paired : g.Paired) (h : Registers g g') : g'.Paired where
  registered {id d} found := by
    rcases h.known found with old | ⟨-, new⟩
    · have there := paired.registered old
      rcases h.cases d with same | ⟨missing, -⟩
      · rwa [idOf, same]
      · simp [idOf, missing] at there
    · simp [idOf, new]
  members_nodup d := by
    rw [h.membersOf]
    exact paired.members_nodup d
  mem_iff {d j} := by
    rw [h.membersOf, h.handlers]
    exact paired.mem_iff
  apart found := by
    have apart := paired.apart (h.handlers ▸ found)
    refine apart.congr fun d mem => ?_
    rw [idOf, idOf, h.old fun missing => apart.known d mem (by rw [idOf, missing, Option.map_none])]

theorem moves {after : Option Handler} (paired : g.Paired) (moves : Moves k after g g')
    (fits : ∀ handler ∈ after, g.Apart handler.bound) : g'.Paired where
  registered {id d} found := by
    rw [moves.ids]
    exact paired.registered (moves.registry ▸ found)
  members_nodup d := by
    rw [moves.members]
    exact nodup_placed (paired.members_nodup d)
  mem_iff {d h} := by
    rw [moves.members, mem_placed, moves.handlers]
    split
    · cases after <;> simp [bindsTo]
    · exact paired.mem_iff
  apart {h handler} found := by
    rw [moves.handlers] at found
    split at found
    · exact (fits handler found).congr fun d _ => moves.ids d
    · exact (paired.apart found).congr fun d _ => moves.ids d

theorem retouched {other : Handler} (paired : g.Paired) (touched : Retouched k handler g g')
    (found : g.handlers.get? k = some other) (bound : handler.bound = other.bound) :
    g'.Paired := by
  have moves := touched.moves (bound ▸ paired.mirrored.mem_bound found)
  refine paired.moves moves fun _ eq => ?_
  cases eq
  exact bound ▸ paired.apart found

theorem added (paired : g.Paired) (touched : Retouched k handler g g')
    (absent : g.handlers.get? k = none) (bound : handler.bound = []) : g'.Paired := by
  have moves := touched.moves fun d => by simp [bound, paired.mirrored.not_mem absent d]
  refine paired.moves moves fun _ eq => ?_
  cases eq
  exact bound ▸ .nil g

end Paired

/-! ## Watching -/

/-- A graph and the dispatchers whose programs were to be replaced so far, whether their sources
compiled or not. -/
structure Watched where
  graph : DispatchGraph
  attempts : List (Key .dispatcher) := []

namespace Watched

def recompile (w : Watched) (d : Key .dispatcher) : Watched :=
  ⟨w.graph.recompile d, w.attempts ++ [d]⟩

def leave (h : Key .handler) (w : Watched) (d : Key .dispatcher) : Watched :=
  ({ w with graph := w.graph.removeMember d h } : Watched).recompile d

def join (h : Key .handler) (reorder : Bool) (w : Watched) (d : Key .dispatcher) : Watched :=
  let w := { w with graph := w.graph.addMember d h }
  if reorder then w.recompile d else w

def leaveUnnamed (h : Key .handler) (named : List String) (reorder : Bool) :
    Watched → List (Key .dispatcher) → Watched × List (Key .dispatcher)
  | w, [] => (w, [])
  | w, d :: rest =>
    match w.graph.dispatchers.get? d with
    | none => leaveUnnamed h named reorder w rest
    | some dispatcher =>
      if named.contains dispatcher.id then
        let w := if reorder then w.recompile d else w
        let (w, kept) := leaveUnnamed h named reorder w rest
        (w, d :: kept)
      else leaveUnnamed h named reorder (w.leave h d) rest

def joinNamed (h : Key .handler) (reorder : Bool) :
    Watched → List (Key .dispatcher) → List String → Watched × List (Key .dispatcher)
  | w, bound, [] => (w, bound)
  | w, bound, id :: rest =>
    if w.graph.isBoundTo bound id then joinNamed h reorder w bound rest
    else
      match w.graph.registry.get? id with
      | none => joinNamed h reorder w bound rest
      | some d => joinNamed h reorder (w.join h reorder d) (bound ++ [d]) rest

def rebind (w : Watched) (h : Key .handler) (reorder : Bool) : Watched :=
  match w.graph.handlers.get? h with
  | none => w
  | some handler =>
    let (w, kept) := leaveUnnamed h handler.config.bind reorder w handler.bound
    let (w, bound) := joinNamed h reorder w kept handler.config.bind
    { w with graph := w.graph.setBound h bound }

@[simp] theorem graph_recompile (w : Watched) (d : Key .dispatcher) :
    (w.recompile d).graph = w.graph.recompile d := rfl

@[simp] theorem graph_join (w : Watched) (k : Key .handler) (reorder : Bool)
    (d : Key .dispatcher) : (w.join k reorder d).graph = w.graph.join k reorder d := by
  cases reorder <;> rfl

theorem graph_leaveUnnamed (ds : List (Key .dispatcher)) : ∀ w : Watched,
    DispatchGraph.leaveUnnamed k named reorder w.graph ds =
      ((w.leaveUnnamed k named reorder ds).1.graph, (w.leaveUnnamed k named reorder ds).2) := by
  induction ds with
  | nil => exact fun w => rfl
  | cons d rest ih =>
    intro w
    rw [DispatchGraph.leaveUnnamed, leaveUnnamed]
    cases w.graph.dispatchers.get? d with
    | none => exact ih w
    | some dispatcher =>
      simp only
      split
      · cases reorder with
        | false => simp only [Bool.false_eq_true, if_false, ih w]
        | true => simp only [if_true, ← graph_recompile, ih (w.recompile d)]
      · exact ih (w.leave k d)

theorem graph_joinNamed (names : List String) : ∀ (w : Watched) (bound : List (Key .dispatcher)),
    DispatchGraph.joinNamed k reorder w.graph bound names =
      ((w.joinNamed k reorder bound names).1.graph, (w.joinNamed k reorder bound names).2) := by
  induction names with
  | nil => exact fun w bound => rfl
  | cons id rest ih =>
    intro w bound
    rw [DispatchGraph.joinNamed, joinNamed]
    split
    · exact ih w bound
    · cases w.graph.registry.get? id with
      | none => exact ih w bound
      | some d =>
        simp only [← graph_join]
        exact ih (w.join k reorder d) (bound ++ [d])

/-- Who watches a handler being bound anew changes nothing. -/
theorem graph_rebind (w : Watched) (k : Key .handler) (reorder : Bool) :
    (w.rebind k reorder).graph = w.graph.rebind k reorder := by
  rw [rebind, DispatchGraph.rebind]
  cases w.graph.handlers.get? k with
  | none => rfl
  | some handler => simp only [graph_leaveUnnamed, graph_joinNamed]

/-! ## Leaving -/

/-- Attempts are made at the dispatchers that are left, and with `reorder` at the others too. -/
theorem attempts_leaveUnnamed (ds : List (Key .dispatcher)) : ∀ {w : Watched},
    (∀ d ∈ ds, w.graph.idOf d ≠ none) → (w.leaveUnnamed k named reorder ds).1.attempts =
      w.attempts ++ ds.filter fun d => reorder || !w.graph.isNamed named d := by
  induction ds with
  | nil => simp [leaveUnnamed]
  | cons d rest ih =>
    intro w known
    obtain ⟨first, later⟩ := List.forall_mem_cons.1 known
    rw [leaveUnnamed]
    cases found : w.graph.dispatchers.get? d with
    | none => simp [idOf, found] at first
    | some dispatcher =>
      have isNamed : w.graph.isNamed named d = named.contains dispatcher.id := by
        simp [DispatchGraph.isNamed, idOf, found]
      -- what is said of the rest is said of the graph that it began with
      have carried (w' : Watched) (framed : Framed w.graph w'.graph) :
          (w'.leaveUnnamed k named reorder rest).1.attempts =
            w'.attempts ++ rest.filter fun d => reorder || !w.graph.isNamed named d := by
        rw [ih fun e mem => framed.ids e ▸ later e mem]
        simp only [isNamed_of_framed framed]
      simp only [List.filter_cons, isNamed]
      generalize named.contains dispatcher.id = isListed
      cases isListed with
      | false =>
        rw [if_neg (by simp), carried (w.leave k d) (.leave ..)]
        simp [leave, recompile]
      | true =>
        cases reorder with
        | false => simpa using carried w (.refl w.graph)
        | true => simpa [recompile] using carried (w.recompile d) (.recompile ..)

end Watched

/-! ## Joining -/

/-- What holds while a handler joins dispatchers, whether or not those it has joined are still
registered. -/
structure Entering (k : Key .handler) (g : DispatchGraph)
    (bound : List (Key .dispatcher)) : Prop where
  registered : ∀ {id d}, g.registry.get? id = some d → g.idOf d = some id
  living : g.Living
  alive : g.handlers.contains k
  mem_iff : ∀ {d}, k ∈ g.membersOf d ↔ d ∈ bound
  apart : g.Apart bound

/-- A handler that was bound to dispatchers has joined others, under ids that are listed. -/
structure Joins (k : Key .handler) (reorder : Bool) (names : List String)
    (bound joined : List (Key .dispatcher)) (w w' : Watched) : Prop where
  apart : w.graph.Apart (bound ++ joined)
  registered : ∀ d ∈ joined, ∃ id ∈ names, w.graph.registry.get? id = some d
  reached : ∀ id ∈ names, w.graph.registry.contains id →
    some id ∈ (bound ++ joined).map w.graph.idOf
  members : ∀ e, w'.graph.membersOf e =
    if e ∈ joined then w.graph.membersOf e ++ [k] else w.graph.membersOf e
  attempts : w'.attempts = w.attempts ++ if reorder then joined else []

section

variable {bound joined : List (Key .dispatcher)} {w : Watched}

theorem isBoundTo_iff {id : String} :
    g.isBoundTo bound id ↔ some id ∈ bound.map g.idOf := by
  have id? (e : Key .dispatcher) : (g.dispatchers.get? e).any (·.id == id) ↔
      g.idOf e = some id := by
    cases known : g.dispatchers.get? e <;> simp [idOf, known]
  simp only [isBoundTo, List.any_eq_true, id?, List.mem_map]

theorem Entering.membersOf_join (entering : Entering k g bound) (known : g.idOf d ≠ none)
    (new : d ∉ bound) (reorder : Bool) (e : Key .dispatcher) :
    (g.join k reorder d).membersOf e = if e = d then g.membersOf e ++ [k] else g.membersOf e := by
  change ((g.addMember d k).refreshed reorder d).membersOf e = _
  rw [membersOf_refreshed, membersOf_addMember g d e k known, entering.living.living_eq]
  split
  · rename_i same
    rw [if_neg (same ▸ entering.mem_iff.not.2 new)]
  · rfl

theorem Entering.join (entering : Entering k g bound) {id : String}
    (found : g.registry.get? id = some d) (new : some id ∉ bound.map g.idOf) (reorder : Bool) :
    Entering k (g.join k reorder d) (bound ++ [d]) := by
  have framed := Framed.join g k reorder d
  have hasId := entering.registered found
  have apart : d ∉ bound := fun mem => new (hasId ▸ List.mem_map_of_mem mem)
  have members := entering.membersOf_join (by simp [hasId]) apart reorder
  refine ⟨fun {id d} found => ?_, fun e h mem => ?_, ?_, fun {e} => ?_, ?_⟩
  · rw [framed.ids]
    exact entering.registered (framed.registry ▸ found)
  · rw [framed.handlers]
    rw [members] at mem
    split at mem
    · rcases List.mem_append.1 mem with mem | mem
      · exact entering.living e h mem
      · exact List.mem_singleton.1 mem ▸ entering.alive
    · exact entering.living e h mem
  · rw [framed.handlers]
    exact entering.alive
  · rw [members]
    split
    · rename_i same
      simp [same]
    · rename_i other
      simp [other, entering.mem_iff]
  · refine Apart.congr (g := g) ⟨fun e mem => ?_, ?_⟩ fun e _ => framed.ids e
    · rcases List.mem_append.1 mem with mem | mem
      · exact entering.apart.known e mem
      · simp [List.mem_singleton.1 mem, hasId]
    · rw [List.map_append, List.map_singleton, hasId]
      exact List.nodup_append.2 ⟨entering.apart.distinct, by simp, by grind⟩

theorem Joins.skip {id : String} {w' : Watched} (joins : Joins k reorder names bound joined w w')
    (known : w.graph.registry.contains id → some id ∈ bound.map w.graph.idOf) :
    Joins k reorder (id :: names) bound joined w w' := by
  refine ⟨joins.apart, fun d mem => ?_, List.forall_mem_cons.2 ⟨fun there => ?_, joins.reached⟩,
    joins.members, joins.attempts⟩
  · obtain ⟨other, listed, found⟩ := joins.registered d mem
    exact ⟨other, .tail _ listed, found⟩
  · rw [List.map_append]
    exact List.mem_append_left _ (known there)

/-- The dispatcher of the first id is joined, and others after it. -/
theorem Joins.cons {id : String} {w' : Watched} (entering : Entering k w.graph bound)
    (found : w.graph.registry.get? id = some d) (outside : d ∉ bound)
    (joins : Joins k reorder names (bound ++ [d]) joined (w.join k reorder d) w') :
    Joins k reorder (id :: names) bound (d :: joined) w w' := by
  have hasId := entering.registered found
  have framed : Framed w.graph (w.join k reorder d).graph := by
    rw [Watched.graph_join]
    exact .join ..
  have apart : w.graph.Apart (bound ++ d :: joined) := by
    rw [List.append_cons]
    exact joins.apart.congr fun e _ => (framed.ids e).symm
  have once : d ∉ joined := (List.nodup_cons.1 (List.nodup_append.1 apart.nodup).2.1).1
  refine ⟨apart, ?_, ?_, fun e => ?_, ?_⟩
  · refine List.forall_mem_cons.2 ⟨⟨id, .head _, found⟩, fun e mem => ?_⟩
    obtain ⟨other, listed, found⟩ := joins.registered e mem
    exact ⟨other, .tail _ listed, framed.registry ▸ found⟩
  · refine List.forall_mem_cons.2 ⟨fun _ => ?_, fun other listed known => ?_⟩
    · simp [hasId]
    · rw [List.append_cons, ← List.map_congr_left fun e _ => framed.ids e]
      exact joins.reached other listed (framed.registry ▸ known)
  · rw [joins.members, Watched.graph_join,
      entering.membersOf_join (by simp [hasId]) outside reorder]
    by_cases same : e = d
    · simp [same, once]
    · simp [same]
  · rw [joins.attempts]
    cases reorder <;> simp [Watched.join, Watched.recompile]

/-- The handler joins the registered dispatchers of those ids under which it is not yet bound, one
for each id, and comes to stand at the end of their members. -/
theorem Entering.joinNamed (names : List String) : ∀ {w : Watched}
    {bound : List (Key .dispatcher)}, Entering k w.graph bound → ∃ joined,
      (w.joinNamed k reorder bound names).2 = bound ++ joined ∧
      Joins k reorder names bound joined w (w.joinNamed k reorder bound names).1 := by
  induction names with
  | nil =>
    intro w bound entering
    refine ⟨[], (List.append_nil _).symm, ?_, by simp, by simp, by simp [Watched.joinNamed],
      by simp [Watched.joinNamed]⟩
    rw [List.append_nil]
    exact entering.apart
  | cons id rest ih =>
    intro w bound entering
    rw [Watched.joinNamed]
    split
    · rename_i old
      obtain ⟨joined, eq, joins⟩ := ih entering
      exact ⟨joined, eq, joins.skip fun _ => isBoundTo_iff.1 old⟩
    · rename_i new
      rw [isBoundTo_iff] at new
      cases found : w.graph.registry.get? id with
      | none =>
        obtain ⟨joined, eq, joins⟩ := ih entering
        exact ⟨joined, eq, joins.skip fun known => by simp [Table.contains, found] at known⟩
      | some d =>
        have outside : d ∉ bound := fun mem =>
          new (entering.registered found ▸ List.mem_map_of_mem mem)
        have entered : Entering k (w.join k reorder d).graph (bound ++ [d]) := by
          rw [Watched.graph_join]
          exact entering.join found new reorder
        obtain ⟨joined, eq, joins⟩ := ih entered
        exact ⟨d :: joined, by rw [List.append_cons]; exact eq, joins.cons entering found outside⟩

end

/-! ## Binding anew -/

/-- The dispatchers of a handler whose ids its configuration lists. -/
def keptBy (g : DispatchGraph) (handler : Handler) : List (Key .dispatcher) :=
  handler.bound.filter (g.isNamed handler.config.bind)

/-- What comes of binding a handler anew that joins some dispatchers then. -/
structure Reconciled (k : Key .handler) (handler : Handler) (reorder : Bool)
    (joined : List (Key .dispatcher)) (g : DispatchGraph) (w : Watched) : Prop where
  engine : w.graph.engine = g.engine
  registry : w.graph.registry = g.registry
  ids : ∀ d, w.graph.idOf d = g.idOf d
  bound : ∀ h, w.graph.handlers.get? h =
    if h = k then some { handler with bound := g.keptBy handler ++ joined } else g.handlers.get? h
  /-- No two dispatchers have one id. -/
  distinct : ((g.keptBy handler ++ joined).map g.idOf).Nodup
  listed : ∀ d ∈ g.keptBy handler ++ joined, ∃ id ∈ handler.config.bind, g.idOf d = some id
  /-- The new dispatchers are registered. -/
  registered : ∀ d ∈ joined, ∃ id ∈ handler.config.bind, g.registry.get? id = some d
  reached : ∀ id ∈ handler.config.bind, g.registry.contains id →
    some id ∈ (g.keptBy handler ++ joined).map g.idOf
  /-- A dropped dispatcher has all its members but the handler. -/
  dropped : ∀ d ∈ handler.bound, d ∉ g.keptBy handler →
    w.graph.membersOf d = (g.membersOf d).filter (· != k)
  /-- A kept one has the handler once, in its old place. -/
  stayed : ∀ d ∈ g.keptBy handler, w.graph.membersOf d = g.membersOf d ∧ (g.membersOf d).count k = 1
  /-- A new one did not have it, and has it behind the others. -/
  came : ∀ d ∈ joined, w.graph.membersOf d = g.membersOf d ++ [k] ∧ k ∉ g.membersOf d
  others : ∀ d, d ∉ handler.bound → d ∉ joined → w.graph.membersOf d = g.membersOf d
  /-- Attempts are made at the dropped dispatchers, and with `reorder` at all others. -/
  attempts : w.attempts =
    handler.bound.filter (fun d => reorder || decide (d ∉ g.keptBy handler)) ++
    if reorder then joined else []

theorem mem_keptBy : d ∈ g.keptBy handler ↔
    d ∈ handler.bound ∧ ∃ id ∈ handler.config.bind, g.idOf d = some id := by
  rw [keptBy, List.mem_filter]
  cases known : g.idOf d <;> simp [isNamed, known]

section

variable {joined : List (Key .dispatcher)}

/-- A handler has left the dispatchers whose ids its configuration does not list. -/
structure Leaves (k : Key .handler) (handler : Handler) (reorder : Bool) (g : DispatchGraph)
    (w : Watched) : Prop where
  framed : Framed g w.graph
  members : ∀ d, w.graph.membersOf d = if d ∈ handler.bound ∧ d ∉ g.keptBy handler
    then (g.membersOf d).filter (· != k) else g.membersOf d
  attempts : w.attempts = handler.bound.filter fun d => reorder || decide (d ∉ g.keptBy handler)

theorem isNamed_eq_mem_keptBy (mem : d ∈ handler.bound) :
    g.isNamed handler.config.bind d = decide (d ∈ g.keptBy handler) := by
  rw [Bool.eq_iff_iff, keptBy, decide_eq_true_iff, List.mem_filter]
  exact (and_iff_right mem).symm

theorem Paired.leaveUnnamed (paired : g.Paired) (found : g.handlers.get? k = some handler)
    (reorder : Bool) : ∃ w,
      ({ graph := g } : Watched).leaveUnnamed k handler.config.bind reorder handler.bound =
        (w, g.keptBy handler) ∧ Leaves k handler reorder g w := by
  have framed := @Framed.leaveUnnamed k handler.config.bind reorder handler.bound g
  obtain ⟨kept, members⟩ :=
    @leaveUnnamed_members k handler.config.bind reorder handler.bound g paired.living
  rw [Watched.graph_leaveUnnamed handler.bound { graph := g }] at framed kept members
  refine ⟨_, Prod.ext rfl kept, framed, fun d => ?_, ?_⟩
  · simp only [members]
    refine if_congr (and_congr_right fun mem => ?_) rfl rfl
    rw [isNamed_eq_mem_keptBy mem, decide_eq_false_iff_not]
  · rw [Watched.attempts_leaveUnnamed handler.bound (paired.apart found).known, List.nil_append]
    refine List.filter_congr fun d mem => ?_
    rw [isNamed_eq_mem_keptBy mem, decide_not]

/-- Leaving what is not listed prepares for joining what is. -/
theorem Leaves.entering {w : Watched} (paired : g.Paired) (found : g.handlers.get? k = some handler)
    (leaves : Leaves k handler reorder g w) : Entering k w.graph (g.keptBy handler) where
  registered {id d} registered := by
    rw [leaves.framed.ids]
    exact paired.registered (leaves.framed.registry ▸ registered)
  living d h mem := by
    rw [leaves.framed.handlers]
    rw [leaves.members] at mem
    split at mem
    · exact paired.living d h (List.mem_filter.1 mem).1
    · exact paired.living d h mem
  alive := by
    rw [leaves.framed.handlers]
    simp [Store.contains, found]
  mem_iff {d} := by
    rw [leaves.members]
    split
    · rename_i left
      simp [left.2]
    · rename_i stays
      rw [paired.mirrored.mem_bound found]
      exact ⟨fun old => by_contra fun gone => stays ⟨old, gone⟩, fun kept => (mem_keptBy.1 kept).1⟩
  apart := ((paired.apart found).filter _).congr fun d _ => leaves.framed.ids d

/-- What is left and what is joined then, together. -/
theorem Leaves.reconciled {left w : Watched} (paired : g.Paired)
    (found : g.handlers.get? k = some handler) (leaves : Leaves k handler reorder g left)
    (framed : Framed g w.graph)
    (joins : Joins k reorder handler.config.bind (g.keptBy handler) joined left w) :
    Reconciled k handler reorder joined g
      { w with graph := w.graph.setBound k (g.keptBy handler ++ joined) } := by
  have found' : w.graph.handlers.get? k = some handler := by rw [framed.handlers, found]
  have touched := Retouched.setBound found' (g.keptBy handler ++ joined)
  have inside {d : Key .dispatcher} : k ∈ g.membersOf d ↔ d ∈ handler.bound :=
    paired.mirrored.mem_bound found d
  have registered {d : Key .dispatcher} (mem : d ∈ joined) :
      ∃ id ∈ handler.config.bind, g.registry.get? id = some d := by
    rw [← leaves.framed.registry]
    exact joins.registered d mem
  have new {d : Key .dispatcher} (mem : d ∈ joined) : d ∉ g.keptBy handler := fun old =>
    (List.nodup_append.1 joins.apart.nodup).2.2 d old d mem rfl
  -- what is joined is listed, so it was not dropped
  have elsewhere {d : Key .dispatcher} (mem : d ∈ joined) : d ∉ handler.bound := fun old => by
    obtain ⟨id, listed, known⟩ := registered mem
    exact new mem (mem_keptBy.2 ⟨old, id, listed, paired.registered known⟩)
  have idsOf {ds : List (Key .dispatcher)} : ds.map left.graph.idOf = ds.map g.idOf :=
    List.map_congr_left fun d _ => leaves.framed.ids d
  refine ⟨touched.engine.trans framed.engine, touched.registry.trans framed.registry,
    fun d => (touched.idOf d).trans (framed.ids d), fun h => ?_, idsOf ▸ joins.apart.distinct,
    fun d mem => ?_, fun d => registered, fun id listed known => ?_, fun d mem gone => ?_,
    fun d mem => ?_, fun d mem => ?_, fun d outside unjoined => ?_, ?_⟩
  · rw [touched.handlers, framed.handlers]
  · rcases List.mem_append.1 mem with mem | mem
    · exact (mem_keptBy.1 mem).2
    · obtain ⟨id, listed, known⟩ := registered mem
      exact ⟨id, listed, paired.registered known⟩
  · rw [← idsOf]
    exact joins.reached id listed (leaves.framed.registry ▸ known)
  · rw [touched.membersOf, joins.members, if_neg fun mem' => elsewhere mem' mem, leaves.members,
      if_pos ⟨mem, gone⟩]
  · refine ⟨?_, List.count_eq_one_of_mem (paired.members_nodup d) (inside.2 (mem_keptBy.1 mem).1)⟩
    rw [touched.membersOf, joins.members, if_neg fun mem' => new mem' mem, leaves.members,
      if_neg fun h => h.2 mem]
  · refine ⟨?_, inside.not.2 (elsewhere mem)⟩
    rw [touched.membersOf, joins.members, if_pos mem, leaves.members,
      if_neg fun h => elsewhere mem h.1]
  · rw [touched.membersOf, joins.members, if_neg unjoined, leaves.members,
      if_neg fun h => outside h.1]
  · rw [joins.attempts, leaves.attempts]

/-- Binding a handler anew reconciles it with the list of its configuration. -/
theorem Paired.rebind (paired : g.Paired) (found : g.handlers.get? k = some handler)
    (reorder : Bool) :
    ∃ joined,
      Reconciled k handler reorder joined g (({ graph := g } : Watched).rebind k reorder) := by
  obtain ⟨left, leaving, leaves⟩ := paired.leaveUnnamed found reorder
  obtain ⟨joined, now, joins⟩ :=
    @Entering.joinNamed k reorder handler.config.bind left _ (leaves.entering paired found)
  have arrived := @Framed.joinNamed k reorder handler.config.bind left.graph (g.keptBy handler)
  rw [Watched.graph_joinNamed] at arrived
  refine ⟨joined, ?_⟩
  simp only [Watched.rebind, found, leaving, now]
  exact leaves.reconciled paired found (leaves.framed.trans arrived) joins

theorem Reconciled.moves {w : Watched} (paired : g.Paired)
    (found : g.handlers.get? k = some handler)
    (reconciled : Reconciled k handler reorder joined g w) :
    Moves k (some { handler with bound := g.keptBy handler ++ joined }) g w.graph := by
  refine ⟨reconciled.engine, reconciled.registry, reconciled.ids, reconciled.bound, fun d => ?_⟩
  have inside := paired.mirrored.mem_bound found d
  rw [placed]
  by_cases kept : d ∈ g.keptBy handler
  · simp [bindsTo, kept, (reconciled.stayed d kept).1, inside.2 (mem_keptBy.1 kept).1]
  · by_cases new : d ∈ joined
    · obtain ⟨members, outside⟩ := reconciled.came d new
      simp [bindsTo, new, members, outside]
    · by_cases old : d ∈ handler.bound
      · simp [bindsTo, kept, new, reconciled.dropped d old kept]
      · simp [bindsTo, kept, new, reconciled.others d old new, filter_of_not_mem (inside.not.2 old)]

theorem Reconciled.paired {w : Watched} (paired : g.Paired)
    (found : g.handlers.get? k = some handler)
    (reconciled : Reconciled k handler reorder joined g w) : w.graph.Paired := by
  refine paired.moves (reconciled.moves paired found) fun _ eq => ?_
  cases eq
  refine ⟨fun d mem => ?_, reconciled.distinct⟩
  obtain ⟨id, -, known⟩ := reconciled.listed d mem
  simp [known]

/-! ## Once more -/

theorem Watched.leaveUnnamed_of_named (ds : List (Key .dispatcher)) : ∀ {w : Watched},
    (∀ d ∈ ds, w.graph.isNamed named d) → w.leaveUnnamed k named false ds = (w, ds) := by
  induction ds with
  | nil => exact fun _ => rfl
  | cons d rest ih =>
    intro w listed
    obtain ⟨first, later⟩ := List.forall_mem_cons.1 listed
    rw [leaveUnnamed]
    cases found : w.graph.dispatchers.get? d with
    | none => simp [isNamed, idOf, found] at first
    | some dispatcher =>
      have isListed : named.contains dispatcher.id = true := by
        simpa only [isNamed, idOf, found, Option.map_some, Option.any_some] using first
      simp only [isListed, if_true, Bool.false_eq_true, if_false, ih later]

theorem Watched.joinNamed_of_reached {bound : List (Key .dispatcher)} (names : List String) :
    ∀ {w : Watched}, (∀ id ∈ names, w.graph.registry.contains id →
      some id ∈ bound.map w.graph.idOf) → w.joinNamed k reorder bound names = (w, bound) := by
  induction names with
  | nil => exact fun _ => rfl
  | cons id rest ih =>
    intro w reached
    obtain ⟨first, later⟩ := List.forall_mem_cons.1 reached
    rw [joinNamed]
    split
    · exact ih later
    · rename_i new
      cases found : w.graph.registry.get? id with
      | none => exact ih later
      | some d => exact absurd (isBoundTo_iff.2 (first (by simp [Table.contains, found]))) new

/-- A handler that was bound anew is bound to what it would be bound to: nothing changes, and no
program is to be replaced. -/
theorem Reconciled.again {w : Watched} (reconciled : Reconciled k handler reorder joined g w) :
    ({ graph := w.graph } : Watched).rebind k false = { graph := w.graph } := by
  have found := reconciled.bound k
  rw [if_pos rfl] at found
  have idsOf : (g.keptBy handler ++ joined).map w.graph.idOf =
      (g.keptBy handler ++ joined).map g.idOf :=
    List.map_congr_left fun d _ => reconciled.ids d
  have named : ∀ d ∈ g.keptBy handler ++ joined, w.graph.isNamed handler.config.bind d := by
    intro d mem
    obtain ⟨id, listed, known⟩ := reconciled.listed d mem
    simpa [isNamed, reconciled.ids, known] using listed
  have reached : ∀ id ∈ handler.config.bind, w.graph.registry.contains id →
      some id ∈ (g.keptBy handler ++ joined).map w.graph.idOf := by
    rw [idsOf, reconciled.registry]
    exact reconciled.reached
  have left : ({ graph := w.graph } : Watched).leaveUnnamed k handler.config.bind false
      (g.keptBy handler ++ joined) = (_, _) := Watched.leaveUnnamed_of_named _ named
  have joins : ({ graph := w.graph } : Watched).joinNamed k false
      (g.keptBy handler ++ joined) handler.config.bind = (_, _) :=
    Watched.joinNamed_of_reached _ reached
  have unchanged : w.graph.setBound k (g.keptBy handler ++ joined) = w.graph := by
    rw [setBound, Store.modify_eq_self fun other there => ?_]
    cases found.symm.trans there
    rfl
  simp only [Watched.rebind, found, left, joins, unchanged]

end

end DispatchGraph
end ScriptHost
