import ScriptHost.Proofs.Dispatch.Joined
import ScriptHost.Proofs.Dispatch.Linked
/-!
# The programs of dispatchers

A dispatcher's program is replaced when its source may have changed, and stays when the new
source does not compile.

**What is said of it.**
* `Fresh`: if the present source compiles, the program is what it compiles to.
* `Among`: program and members are of handlers whose ids satisfy a condition. Also where the
  present source does not compile this says whose routines can run.

Both are kept by every replacement of a program and depend on little: on the members of the
dispatcher, on what each of them contributes, and on the program itself.
-/
namespace ScriptHost

/-- What a dispatcher's source has of a handler: its id, its place and its program. -/
def Handler.contribution (handler : Handler) : String × Int64 × Option Program :=
  (handler.id, handler.config.priority, handler.program)

namespace DispatchGraph

/-! ## Sources -/

theorem joinSource_congr {x y : Handler} (same : x.contribution = y.contribution)
    (source : ProgramSource) : joinSource source x = joinSource source y := by
  obtain ⟨id, program⟩ : x.id = y.id ∧ x.program = y.program := by
    simp only [Handler.contribution, Prod.mk.injEq] at same
    exact ⟨same.1, same.2.2⟩
  simp only [joinSource, Handler.routine, id, program]

theorem foldl_joinSource_congr : ∀ {list list' : List Handler},
    list.map Handler.contribution = list'.map Handler.contribution → ∀ source : ProgramSource,
      list.foldl joinSource source = list'.foldl joinSource source
  | [], [], _, _ => rfl
  | [], _ :: _, eq, _ => by simp at eq
  | _ :: _, [], eq, _ => by simp at eq
  | x :: rest, y :: rest', eq, source => by
    obtain ⟨head, tail⟩ := List.cons.inj eq
    rw [List.foldl_cons, List.foldl_cons, joinSource_congr head]
    exact foldl_joinSource_congr tail _

theorem map_contribution_crewOf (g : DispatchGraph) (d : Key .dispatcher) :
    (g.crewOf d).map Handler.contribution =
      (g.membersOf d).filterMap fun h => (g.handlers.get? h).map Handler.contribution := by
  rw [crewOf, List.map_filterMap]

/-- The source of ranked handlers is made of what they contribute. -/
theorem joinedSource_ranked_congr {list list' : List Handler}
    (same : list.map Handler.contribution = list'.map Handler.contribution) :
    joinedSource (ranked list) = joinedSource (ranked list') := by
  have byPriority (x y : Handler) (eq : x.contribution = y.contribution) :
      x.config.priority = y.config.priority := by
    simp only [Handler.contribution, Prod.mk.injEq] at eq
    exact eq.2.1
  exact foldl_joinSource_congr (map_ranked Handler.contribution byPriority same) _

theorem sourceOf_congr {g g' : DispatchGraph} {d : Key .dispatcher}
    (members : g'.membersOf d = g.membersOf d)
    (same : ∀ h ∈ g.membersOf d,
      (g'.handlers.get? h).map Handler.contribution =
        (g.handlers.get? h).map Handler.contribution) : g'.sourceOf d = g.sourceOf d := by
  have crew : (g'.crewOf d).map Handler.contribution = (g.crewOf d).map Handler.contribution := by
    rw [map_contribution_crewOf, map_contribution_crewOf, members, List.filterMap_congr same]
  rw [sourceOf, sourceOf, handlersOf_eq, handlersOf_eq]
  exact joinedSource_ranked_congr crew

theorem sourceOf_of_framed {g g' : DispatchGraph} {d : Key .dispatcher} (framed : Framed g g')
    (members : g'.membersOf d = g.membersOf d) : g'.sourceOf d = g.sourceOf d :=
  sourceOf_congr members fun h _ => by rw [framed.handlers]

/-- The sources of handlers that have programs, one after the other, under every namespace of
theirs once, where it first comes. -/
def concatenated (handlers : List Handler) : ProgramSource where
  text := String.join ((unitsOf handlers).map (·.source))
  namespaces := ((unitsOf handlers).flatMap (·.namespaces)).eraseDups
  entries := handlers.map fun h => ⟨h.id, h.routine⟩

theorem addNames_eq (names : List String) : ∀ known : List String,
    names.foldl (fun known name => if known.contains name then known else known ++ [name]) known =
      known ++ (names.filter fun name => !known.contains name).eraseDups := by
  induction names with
  | nil => simp
  | cons name rest ih =>
    intro known
    rw [List.foldl_cons, ih]
    by_cases seen : known.contains name = true
    · rw [if_pos seen, List.filter_cons_of_neg (by simpa using seen)]
    · have later : (rest.filter fun other => !(known ++ [name]).contains other) =
          rest.filter fun other => !other == name && !known.contains other := by
        refine List.filter_congr fun other _ => ?_
        by_cases same : other = name <;> simp [same]
      rw [if_neg seen, List.filter_cons_of_pos (by simpa using seen), List.eraseDups_cons,
        List.filter_filter, later,
        List.append_assoc, List.singleton_append]

/-- The source of a dispatcher is that of its members that have programs. -/
theorem joinedSource_eq {engine : Engine} {handlers : List Handler}
    (own : ∀ h ∈ handlers, h.HoldsOwn engine) :
    joinedSource handlers = concatenated (handlers.filter (·.program.isSome)) := by
  have units : unitsOf (handlers.filter (·.program.isSome)) = unitsOf handlers := by
    rw [unitsOf, unitsOf, List.filterMap_filter]
    refine List.filterMap_congr fun h _ => ?_
    cases h.program <;> rfl
  have text : (joinedSource handlers).text =
      (concatenated (handlers.filter (·.program.isSome))).text := by
    rw [← String.toList_inj, joinedSource_text own, concatenated, units, String.toList_join,
      List.flatMap_map]
  have namespaces : (joinedSource handlers).namespaces =
      (concatenated (handlers.filter (·.program.isSome))).namespaces := by
    rw [joinedSource, namespaces_joinSource, addNames_eq, concatenated, units]
    simp
  have entries : (joinedSource handlers).entries =
      (concatenated (handlers.filter (·.program.isSome))).entries := by
    rw [joinedSource, entries_joinSource, concatenated, List.nil_append]
    clear own units text namespaces
    induction handlers with
    | nil => rfl
    | cons h rest ih => cases program : h.program <;> simp [program, ih]
  change ProgramSource.mk (joinedSource handlers).text (joinedSource handlers).namespaces
    (joinedSource handlers).entries = _
  rw [text, namespaces, entries]

theorem nothing_compiles (engine : Engine) :
    ∃ program, (joinedSource []).compile engine = .ok program :=
  joined_compiles_of_none (by simp) rfl

/-! ## Programs -/

def programOf (g : DispatchGraph) (d : Key .dispatcher) : Option Program :=
  (g.dispatchers.get? d).bind (·.program)

theorem programOf_recompile {g : DispatchGraph} {d : Key .dispatcher} {program : Program}
    (known : g.idOf d ≠ none) (made : (g.sourceOf d).compile g.engine = .ok program) :
      (g.recompile d).programOf d = some program := by
  obtain ⟨dispatcher, found⟩ : ∃ dispatcher, g.dispatchers.get? d = some dispatcher := by
    cases found : g.dispatchers.get? d with
    | none => simp [idOf, found] at known
    | some dispatcher => exact ⟨dispatcher, rfl⟩
  simp [recompile, made, programOf, found]

theorem programOf_recompile_of_ne {g : DispatchGraph} {d e : Key .dispatcher} (ne : e ≠ d) :
    (g.recompile d).programOf e = g.programOf e := by
  rw [programOf, get?_recompile_of_ne g d e ne, programOf]

theorem programOf_recompile_of_error {g : DispatchGraph} {d : Key .dispatcher}
    {refused : CompileError} (h : (g.sourceOf d).compile g.engine = .error refused) :
    g.recompile d = g := by
  simp [recompile, h]

@[simp] theorem programOf_removeMember (g : DispatchGraph) (d e : Key .dispatcher)
    (h : Key .handler) :
    (g.removeMember d h).programOf e = g.programOf e := by
  by_cases same : e = d
  · cases found : g.dispatchers.get? d <;> simp [removeMember, programOf, same, found]
  · simp [removeMember, programOf, same]

@[simp] theorem programOf_addMember (g : DispatchGraph) (d e : Key .dispatcher) (h : Key .handler) :
    (g.addMember d h).programOf e = g.programOf e := by
  by_cases same : e = d
  · cases found : g.dispatchers.get? d <;> simp [addMember, programOf, same, found]
  · simp [addMember, programOf, same]

/-- A dispatcher's program is that of its present source, if that compiles. -/
def Fresh (g : DispatchGraph) (d : Key .dispatcher) : Prop :=
  g.idOf d ≠ none → ∀ program, (g.sourceOf d).compile g.engine = .ok program →
    g.programOf d = some program

/-- All handlers have programs of sources of their own. -/
def AllOwn (g : DispatchGraph) : Prop :=
  ∀ h handler, g.handlers.get? h = some handler → handler.HoldsOwn g.engine

/-- A program was made of handlers with ids of some kind, each with a program of its own. -/
def MadeOf (engine : Engine) (P : String → Prop) (program : Program) : Prop :=
  ∃ handlers : List Handler, (∀ h ∈ handlers, P h.id ∧ h.HoldsOwn engine) ∧
    (joinedSource handlers).compile engine = .ok program

/-- A dispatcher's members have ids of some kind, and its program was made of handlers with such
ids. -/
structure Among (g : DispatchGraph) (d : Key .dispatcher) (P : String → Prop) : Prop where
  own : g.AllOwn
  members : ∀ id ∈ g.memberIds d, P id
  made : ∀ program, g.programOf d = some program → MadeOf g.engine P program

section

variable {g g' : DispatchGraph} {d e : Key .dispatcher} {P : String → Prop}

theorem Fresh.of_same (fresh : g.Fresh d) (engine : g'.engine = g.engine)
    (ids : g'.idOf d = g.idOf d) (program : g'.programOf d = g.programOf d)
      (source : g'.sourceOf d = g.sourceOf d) : g'.Fresh d := by
  unfold Fresh
  rw [engine, ids, program, source]
  exact fresh

theorem fresh_recompile (g : DispatchGraph) (d : Key .dispatcher) : (g.recompile d).Fresh d := by
  intro known program made
  rw [idOf_recompile] at known
  rw [engine_recompile, sourceOf_of_framed (.recompile g d) (by simp)] at made
  exact programOf_recompile known made

theorem Fresh.recompile (fresh : g.Fresh e) (d : Key .dispatcher) : (g.recompile d).Fresh e := by
  by_cases same : e = d
  · exact same ▸ fresh_recompile g d
  · exact fresh.of_same (by simp) (by simp) (programOf_recompile_of_ne same)
      (sourceOf_of_framed (.recompile g d) (by simp))

theorem Among.mono (among : g.Among d P) {Q : String → Prop} (weaker : ∀ id, P id → Q id) :
    g.Among d Q where
  own := among.own
  members id mem := weaker id (among.members id mem)
  made program holds := by
    obtain ⟨handlers, kind, compiled⟩ := among.made program holds
    exact ⟨handlers, fun h mem => (kind h mem).imp_left (weaker _), compiled⟩

theorem AllOwn.of_framed (own : g.AllOwn) (framed : Framed g g') : g'.AllOwn := by
  intro h handler found
  rw [framed.engine]
  exact own h handler (framed.handlers ▸ found)

theorem Among.of_same (among : g.Among d P) (own : g'.AllOwn) (engine : g'.engine = g.engine)
    (program : g'.programOf d = g.programOf d) (members : ∀ id ∈ g'.memberIds d,
      P id) : g'.Among d P where
  own
  members
  made := by
    rw [engine, program]
    exact among.made

theorem memberIds_of_framed (framed : Framed g g') (members : g'.membersOf d = g.membersOf d) :
    g'.memberIds d = g.memberIds d := by
  rw [memberIds, memberIds, crewOf, crewOf, members, framed.handlers]

theorem among_of_compiled (own : g.AllOwn) (members : ∀ id ∈ g.memberIds d, P id)
    (made : ∀ program, g.programOf d = some program →
      (g.sourceOf d).compile g.engine = .ok program) : g.Among d P where
  own
  members
  made program holds := by
    refine ⟨g.handlersOf d, fun handler mem => ?_, made program holds⟩
    obtain ⟨h, member, found⟩ := mem_handlersOf.1 mem
    exact ⟨members _ (mem_memberIds.2 ⟨h, member, handler, found, rfl⟩), own h handler found⟩

theorem Among.recompile (among : g.Among e P) (d : Key .dispatcher) :
    (g.recompile d).Among e P := by
  have members : ∀ id ∈ (g.recompile d).memberIds e, P id := by
    rw [memberIds_of_framed (.recompile g d) (by simp)]
    exact among.members
  have own := among.own.of_framed (.recompile g d)
  by_cases same : e = d
  · subst same
    cases made : (g.sourceOf e).compile g.engine with
    | error refused => rwa [programOf_recompile_of_error made]
    | ok program =>
      refine among_of_compiled own members fun program' holds => ?_
      rw [engine_recompile, sourceOf_of_framed (.recompile g e) (by simp), made]
      by_cases known : g.idOf e = none
      · have missing : (g.recompile e).idOf e = none := by simpa using known
        cases found : (g.recompile e).dispatchers.get? e <;> simp_all [idOf, programOf]
      · rw [programOf_recompile known made] at holds
        rw [Option.some.inj holds]
  · exact among.of_same own (by simp) (programOf_recompile_of_ne same) members

/-- Where the present source compiles, a fresh program is of the present members. -/
theorem Fresh.among (fresh : g.Fresh d) (own : g.AllOwn) {program : Program}
    (made : (g.sourceOf d).compile g.engine = .ok program) : g.Among d (· ∈ g.memberIds d) := by
  refine among_of_compiled own (fun _ mem => mem) fun program' holds => ?_
  have known : g.idOf d ≠ none := by
    cases found : g.dispatchers.get? d <;> simp_all [idOf, programOf]
  rw [fresh known program made] at holds
  rw [made, Option.some.inj holds]

end

/-! ## Several programs -/

theorem Framed.recompileEach (keys : List (Key .dispatcher)) :
    ∀ g : DispatchGraph, Framed g (g.recompileEach keys) := by
  induction keys with
  | nil => exact Framed.refl
  | cons d rest ih => exact fun g => (Framed.recompile g d).trans (ih (g.recompile d))

@[simp] theorem membersOf_recompileEach (keys : List (Key .dispatcher)) (e : Key .dispatcher) :
    ∀ g : DispatchGraph, (g.recompileEach keys).membersOf e = g.membersOf e := by
  induction keys with
  | nil => exact fun _ => rfl
  | cons d rest ih => exact fun g => (ih (g.recompile d)).trans (membersOf_recompile ..)

theorem Fresh.recompileEach (keys : List (Key .dispatcher)) {e : Key .dispatcher} :
    ∀ {g : DispatchGraph}, g.Fresh e → (g.recompileEach keys).Fresh e := by
  induction keys with
  | nil => exact id
  | cons d rest ih => exact fun fresh => ih (fresh.recompile d)

theorem fresh_recompileEach {keys : List (Key .dispatcher)} {e : Key .dispatcher} (mem : e ∈ keys) :
    ∀ g : DispatchGraph, (g.recompileEach keys).Fresh e := by
  induction keys with
  | nil => cases mem
  | cons d rest ih =>
    intro g
    rcases List.mem_cons.1 mem with rfl | mem
    · exact (fresh_recompile g e).recompileEach rest
    · exact ih mem (g.recompile d)

theorem Among.recompileEach (keys : List (Key .dispatcher)) {e : Key .dispatcher}
    {P : String → Prop} :
    ∀ {g : DispatchGraph}, g.Among e P → (g.recompileEach keys).Among e P := by
  induction keys with
  | nil => exact id
  | cons d rest ih => exact fun among => ih (among.recompile d)

end DispatchGraph
end ScriptHost
