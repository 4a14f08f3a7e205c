import ScriptHost.Proofs.Project.Runs
import ScriptHost.Script.StandardActions
/-!
# What a project's dispatchers run

What can be relied on at every moment between two operations, however a project came there.

**Results.**
* `bindings_match_configuration`: a handler is a member of exactly the registered dispatchers
  that its configuration names, and nothing that is gone is a member of anything.
* `programs_are_current`: wherever the members of a dispatcher compile together, its program is
  what they compile to, in the order of their priorities and of the time for which they have
  been bound.
* `leavers_are_gone`: a handler that left a dispatcher does not run there any more once the
  members that stay have compiled together, or all handlers were made anew.
* `leaver_runs_on`: as long as neither has happened, it may.
-/
namespace ScriptHost

open DispatchGraph

/-! ## An order of one's own -/

namespace DispatchGraph

variable {g : DispatchGraph} {d : Key .dispatcher} {graphs : List DispatchGraph}

/-- Handlers in the order in which a dispatcher is to run them: those bound to it that have a
program, the highest priority first, and of one priority those first that have been bound for
longer. -/
structure InTurn (g : DispatchGraph) (graphs : List DispatchGraph) (d : Key .dispatcher)
    (handlers : List Handler) : Prop where
  mem_iff : ∀ handler, handler ∈ handlers ↔
    handler.program.isSome ∧ ∃ h, g.handlers.get? h = some handler ∧ d ∈ handler.bound
  nodup : (handlers.map (·.id)).Nodup
  sorted : handlers.Pairwise (RunsBefore fun first second =>
    streak d second.id graphs < streak d first.id graphs)

theorem RunsBefore.asymm {before : Handler → Handler → Prop}
    (asymm : ∀ x y, before x y → ¬ before y x) {x y : Handler} (h : RunsBefore before x y) :
    ¬ RunsBefore before y x := by
  rintro (lower | ⟨same, later⟩)
  · exact Int64.lt_irrefl (Int64.lt_of_lt_of_le lower h.not_higher)
  · rcases h with lower | ⟨-, earlier⟩
    · exact Int64.lt_irrefl (same ▸ lower)
    · exact asymm x y earlier later

theorem InTurn.unique {handlers other : List Handler} (h : InTurn g graphs d handlers)
    (h' : InTurn g graphs d other) : handlers = other := by
  have apart {list : List Handler} (inTurn : InTurn g graphs d list) : list.Nodup :=
    (List.pairwise_map.1 inTurn.nodup).imp fun differ same => differ (congrArg Handler.id same)
  have perm : handlers.Perm other :=
    (List.perm_ext_iff_of_nodup (apart h) (apart h')).2 fun x =>
      (h.mem_iff x).trans (h'.mem_iff x).symm
  refine perm.eq_of_pairwise (fun x y _ _ first second => ?_) h.sorted h'.sorted
  exact absurd second (first.asymm fun _ _ => Nat.lt_asymm)

theorem inTurn_handlersOf (linked : g.Linked) (aligned : Aligned d g graphs) :
    InTurn g graphs d ((g.handlersOf d).filter (·.program.isSome)) where
  mem_iff handler := by
    rw [List.mem_filter, mem_handlersOf, and_comm]
    refine and_congr_right fun _ =>
      ⟨fun ⟨h, member, found⟩ => ⟨h, found, ?_⟩, fun ⟨h, found, bound⟩ => ⟨h, ?_, found⟩⟩
    · obtain ⟨handler', found', bound⟩ := linked.mem_iff.1 member
      cases found.symm.trans found'
      exact bound
    · exact linked.mem_iff.2 ⟨handler, found, bound⟩
  nodup := by
    have apart : (g.memberIds d).Nodup := aligned.imp fun longer same => by simp [same] at longer
    have sublist := (List.filter_sublist (p := (·.program.isSome)) (l := g.handlersOf d)).map (·.id)
    refine List.Nodup.sublist sublist ?_
    rw [handlersOf_eq]
    exact ((ranked_perm (g.crewOf d)).map Handler.id).nodup_iff.2 apart
  sorted := by
    rw [handlersOf_eq]
    exact (pairwise_ranked (List.pairwise_map.1 aligned)).filter _

/-- What a program was made of says whose routines it runs. -/
theorem MadeOf.entries {engine : Engine} {P : String → Prop} {program : Program}
    (made : MadeOf engine P program) :
    ∀ entry ∈ program.entries, P entry.owner ∧ entry.block = Handler.routineName entry.owner := by
  obtain ⟨handlers, kind, compiled⟩ := made
  intro entry mem
  rw [(ProgramSource.compile_ok_iff.1 compiled).2, joinedSource, entries_joinSource] at mem
  obtain ⟨h, inside, eq⟩ := List.mem_filterMap.1 ((List.mem_append.1 mem).resolve_left (by simp))
  obtain ⟨program, -, rfl⟩ := Option.map_eq_some_iff.1 eq
  exact ⟨(kind h inside).1, rfl⟩

end DispatchGraph

namespace Project

/-! ## A project with three handlers -/

/-- A project with one dispatcher and three handlers. The `tag` of `a` takes an argument, that
of `b` does not, and which of them the word stands for is up to the first namespace, that of `c`
as long as it is there. -/
def trio : FileTree := .directory [("p", .directory [
  ("vesper.toml", textFile ["dispatchers = [\"d\"]"]),
  ("handlers", .directory [("all.toml", textFile [
    "[a]", "bind = \"d\"", "priority = 10", "namespace = \"alt\"", "handle = \"print tag *x\"",
    "[b]", "bind = \"d\"", "priority = 1", "namespace = \"text\"", "handle = \"print tag\"",
    "[c]", "bind = \"d\"", "priority = 20", "namespace = \"text\"", "handle = \"print *gone\""])]),
  ("schedules", .directory [])])]

/-- `c` leaves the dispatcher, but its routine stays until `a` leaves too and `b` compiles by
itself. -/
def PartsInTurn (g : DispatchGraph) : Prop :=
  let first := g.unbindAll ⟨2⟩
  let second := first.unbindAll ⟨0⟩
  g.registry.get? "d" = some ⟨0⟩ ∧ ((g.sourceOf ⟨0⟩).compile g.engine).toOption.isSome = true ∧
    g.memberIds ⟨0⟩ = ["a", "b", "c"] ∧
    first.memberIds ⟨0⟩ = ["a", "b"] ∧
    ((first.programOf ⟨0⟩).any fun program => program.entries.any (·.owner == "c")) = true ∧
    second.memberIds ⟨0⟩ = ["b"] ∧
      ((second.sourceOf ⟨0⟩).compile second.engine).toOption.isSome = true

instance (g : DispatchGraph) : Decidable (PartsInTurn g) :=
  inferInstanceAs (Decidable (_ ∧ _ ∧ _ ∧ _ ∧ _ ∧ _ ∧ _))

theorem trio_parts :
    ∃ t, (Trace.load "/p" StandardActions.engine false (.standing 0)).outcome? trio = some t ∧
    (t.project.run [.update ⟨1⟩ .empty]).graph.memberIds ⟨0⟩ = ["a", "c"] ∧
    PartsInTurn t.project.graph := by
  -- One evaluation for all of it: to load the project is what takes long.
  have parts : ((Trace.load "/p" StandardActions.engine false (.standing 0)).outcome? trio).any
      (fun t => decide ((t.project.run [.update ⟨1⟩ .empty]).graph.memberIds ⟨0⟩ = ["a", "c"] ∧
        PartsInTurn t.project.graph)) = true := by decide +kernel
  obtain ⟨t, loaded, holds⟩ := (Option.any_eq_true _ _).1 parts
  exact ⟨t, loaded, of_decide_eq_true holds⟩

theorem ok_of_isSome {ε α : Type} {result : Except ε α} (h : result.toOption.isSome = true) :
    ∃ a, result = .ok a := by
  cases result with
  | error _ => cases h
  | ok a => exact ⟨a, rfl⟩

/-! ## Bindings -/

/-- The two sides of a project's bindings agree with each other and with the configuration. -/
structure TwoSided (project : Project) : Prop where
  /-- A handler is known by its id and has the configuration of the entry that was taken over
  last. -/
  live : ∀ {id owned}, project.handlers.get? id = some owned → ∃ handler,
    project.graph.handlers.get? owned.entity = some handler ∧ handler.id = id ∧
      HandlerConfig.ofEntry id handler.entry = .ok handler.config
  /-- It is bound to a registered dispatcher, once and on both sides, exactly if its
  configuration names it. -/
  once : ∀ {h handler name d}, project.graph.handlers.get? h = some handler →
    project.graph.registry.get? name = some d →
    (project.graph.membersOf d).count h = (if name ∈ handler.config.bind then 1 else 0) ∧
      handler.bound.count d = if name ∈ handler.config.bind then 1 else 0
  /-- It is bound to registered dispatchers only. -/
  registered : ∀ {h handler}, project.graph.handlers.get? h = some handler →
    ∀ d ∈ handler.bound, ∃ name,
    project.graph.registry.get? name = some d ∧ project.graph.idOf d = some name
  /-- The members of a dispatcher, registered or not, are handlers of the project. -/
  present : ∀ {d h}, h ∈ project.graph.membersOf d →
    ∃ id owned, project.handlers.get? id = some owned ∧ owned.entity = h

theorem twoSided_of_inOrder {project : Project}
    (inOrder : InOrder True project.handlers project.graph) : project.TwoSided where
  live known := by
    obtain ⟨handler, found, rfl⟩ := inOrder.entities known
    exact ⟨handler, found, rfl, (inOrder.settled found).configured⟩
  once {h handler name d} found registered := by
    have named := (inOrder.named trivial found).mem_bound inOrder.linked registered
    have member := inOrder.linked.mirrored.mem_bound found d
    constructor
    · rw [(inOrder.linked.members_nodup d).count, if_congr (member.trans named) rfl rfl]
    · rw [(inOrder.linked.bound_nodup found).count, if_congr named rfl rfl]
  registered found d mem := by
    obtain ⟨name, known⟩ := (inOrder.settled found).known d mem
    exact ⟨name, known, inOrder.linked.registered known⟩
  present member := by
    obtain ⟨handler, found, -⟩ := inOrder.linked.mem_iff.1 member
    obtain ⟨owned, known, entity⟩ := inOrder.owned found
    exact ⟨handler.id, owned, known, entity⟩

/-- However a loaded project went on, unless a handler was unbound by itself, handlers and
dispatchers are bound to each other as the configuration says. -/
theorem bindings_match_configuration {root : String} {engine : Engine} {extend : Bool}
    {clock : WallClock} {disk : FileTree} {project : Project}
    (loaded : (Project.load root engine extend clock).outcome? disk = some project)
    (ops : List Operation) (never : ∀ k, .unbind k ∉ ops) : (project.run ops).TwoSided := by
  rw [← Trace.project_load, Disk.outcome?_map, Option.map_eq_some_iff] at loaded
  obtain ⟨t, loaded, rfl⟩ := loaded
  have steady : Steady True t := .load loaded
  exact twoSided_of_inOrder (steady.run ops fun _ => never).inOrder

/-- Once `b` has an entry that names no dispatcher, the other two are bound. -/
theorem trio_bindings_match : ∃ project,
    (Project.load "/p" StandardActions.engine false (.standing 0)).outcome? trio = some project ∧
      let after := project.run [.update ⟨1⟩ .empty]
      after.graph.memberIds ⟨0⟩ = ["a", "c"] ∧ after.TwoSided := by
  obtain ⟨t, loaded, others, -⟩ := trio_parts
  have loaded' : (Project.load "/p" StandardActions.engine false
      (.standing 0)).outcome? trio = some t.project := by
    rw [← Trace.project_load, Disk.outcome?_map, loaded, Option.map_some]
  exact ⟨t.project, loaded', others, bindings_match_configuration loaded' _ (by simp)⟩

/-! ## Programs -/

/-- The members of a dispatcher that have programs, in turn, and what they are compiled from. -/
theorem Steady.members {t : Trace} (steady : Steady False t) (d : Key .dispatcher) :
    let members := (t.project.graph.handlersOf d).filter (·.program.isSome)
    InTurn t.project.graph t.graphs d members ∧
      t.project.graph.sourceOf d = concatenated members := by
  intro members
  obtain ⟨older, eq, aligned⟩ := steady.recorded
  have aligned : Aligned d t.project.graph t.graphs := by
    rw [List.nil_append] at eq
    exact eq ▸ aligned d
  have own : ∀ handler ∈ t.project.graph.handlersOf d, handler.HoldsOwn t.project.graph.engine := by
    intro handler mem
    obtain ⟨h, -, found⟩ := mem_handlersOf.1 mem
    exact steady.inOrder.allOwn h handler found
  exact ⟨inTurn_handlersOf steady.inOrder.linked aligned, joinedSource_eq own⟩

/-- However a loaded project went on, a registered dispatcher has the program that its present
members compile to, in their order, if they do compile together. -/
theorem programs_are_current {root : String} {engine : Engine} {extend : Bool} {clock : WallClock}
    {disk : FileTree} {t : Trace}
    (loaded : (Trace.load root engine extend clock).outcome? disk = some t) (ops : List Operation)
    {name : String} {d : Key .dispatcher}
    (registered : (t.project.run ops).graph.registry.get? name = some d) :
    let g := (t.project.run ops).graph
    let past := t.project.passed ops ++ t.graphs
    (∃ handlers, InTurn g past d handlers) ∧
    ∀ handlers, InTurn g past d handlers →
      ∀ program, (concatenated handlers).compile g.engine = .ok program →
        g.idOf d = some name ∧ g.programOf d = some program ∧ program.unit.source =
          (concatenated handlers).text ∧
          program.entries = handlers.map fun h => ⟨h.id, h.routine⟩ := by
  intro g past
  have start : Steady False t := .load loaded
  have steady := start.run ops nofun
  obtain ⟨inTurn, source⟩ := steady.members d
  refine ⟨⟨_, inTurn⟩, fun handlers others program compiled => ?_⟩
  obtain rfl := others.unique inTurn
  have known : g.idOf d = some name := steady.inOrder.linked.registered registered
  have made := ProgramSource.compile_ok_iff.1 compiled
  rw [← source] at compiled
  have current : g.programOf d = some program :=
    steady.fresh d (by rw [known]; exact nofun) program compiled
  exact ⟨known, current, (Engine.compile_ok_iff.1 made.1).1, made.2⟩

theorem trio_program_is_current :
    ∃ t, (Trace.load "/p" StandardActions.engine false (.standing 0)).outcome? trio = some t ∧
    t.project.graph.registry.get? "d" = some ⟨0⟩ ∧ ∃ handlers program,
      InTurn t.project.graph t.graphs ⟨0⟩ handlers ∧
        (concatenated handlers).compile t.project.graph.engine = .ok program ∧
        t.project.graph.programOf ⟨0⟩ = some program := by
  obtain ⟨t, loaded, -, registered, together, -⟩ := trio_parts
  obtain ⟨inTurn, source⟩ := (Steady.load loaded).members ⟨0⟩
  obtain ⟨program, made⟩ := ok_of_isSome (source ▸ together)
  have current := (programs_are_current loaded [] registered).2 _ inTurn program made
  exact ⟨t, loaded, registered, _, program, inTurn, made, current.2.1⟩

/-! ## Leaving -/

/-- However a loaded project came to an operation that leaves a handler unbound from a
dispatcher: as long as the handler is not bound to it again, the dispatcher's program is made of
other handlers and runs their routines only, provided that the operation made all handlers anew,
or that the members that stay compiled together when it, or an operation since, was over. -/
theorem leavers_are_gone {root : String} {engine : Engine} {extend : Bool} {clock : WallClock}
    {disk : FileTree} {t : Trace}
    (loaded : (Trace.load root engine extend clock).outcome? disk = some t) (ops : List Operation)
    (op : Operation) (later : List Operation) {id : String} {d : Key .dispatcher} :
    let before := t.project.run ops
    let after := op.perform before
    id ∉ after.graph.memberIds d → (∀ g ∈ after.passed later, id ∉ g.memberIds d) →
    (op.remakesAll before ∨ ∃ first rest, later = first ++ rest ∧
      ∃ program, ((after.run first).graph.sourceOf d).compile
        (after.run first).graph.engine = .ok program) →
    ∀ program, (after.run later).graph.programOf d = some program →
      MadeOf (after.run later).graph.engine (· ≠ id) program ∧
        ∀ entry ∈ program.entries, entry.owner ≠ id ∧
          entry.block = Handler.routineName entry.owner := by
  intro before after left apart replaced program holds
  have start : Steady False t := .load loaded
  have steady := start.run ops nofun
  have steady' := steady.perform op nofun
  have clean : ∃ first rest, later = first ++ rest ∧ (after.run first).graph.Among d (· ≠ id) := by
    rcases replaced with all | ⟨first, rest, rfl, made, compiled⟩
    · -- all handlers were made anew
      refine ⟨[], later, rfl, (Operation.clean steady all d).mono fun other mem isId => ?_⟩
      exact left (isId ▸ mem)
    · -- the members that stay compiled together
      have steady₁ := steady'.run first nofun
      have ofMembers := (steady₁.fresh d).among steady₁.inOrder.allOwn compiled
      refine ⟨first, rest, rfl, ofMembers.mono fun other mem isId => ?_⟩
      rw [passed_append] at apart
      rcases graph_run_mem steady' first nofun with passed | unchanged
      · exact apart _ (List.mem_append_right _ passed) (isId ▸ mem)
      · exact left (unchanged ▸ isId ▸ mem)
  obtain ⟨first, rest, rfl, among⟩ := clean
  rw [passed_append] at apart
  have stays := stays_run (steady'.run first nofun) rest d
    (· ≠ id) among fun g mem other inside isId =>
    apart g (List.mem_append_left _ mem) (isId ▸ inside)
  have eq : (after.run first).run rest = after.run (first ++ rest) := (List.foldl_append ..).symm
  rw [eq] at stays
  exact ⟨stays.made program holds, (stays.made program holds).entries⟩

theorem trio_leaver_is_gone :
    ∃ t, (Trace.load "/p" StandardActions.engine false (.standing 0)).outcome? trio = some t ∧
    "c" ∈ t.project.graph.memberIds ⟨0⟩ ∧
      ∀ program, (t.project.run [.unbind ⟨2⟩, .unbind ⟨0⟩]).graph.programOf ⟨0⟩ = some program →
        ∀ entry ∈ program.entries, entry.owner ≠ "c" := by
  obtain ⟨t, loaded, -, -, -, there, left, -, alone, compiles⟩ := trio_parts
  refine ⟨t, loaded, by simp [there], fun program holds entry mem => ?_⟩
  refine ((leavers_are_gone loaded []
    (.unbind ⟨2⟩) [.unbind ⟨0⟩] ?_ ?_ ?_ program holds).2 entry mem).1
  · change "c" ∉ (t.project.graph.unbindAll ⟨2⟩).memberIds ⟨0⟩
    rw [left]
    decide
  · intro g passed
    obtain rfl : g = (t.project.graph.unbindAll ⟨2⟩).unbindAll ⟨0⟩ := List.mem_singleton.1 passed
    rw [alone]
    decide
  · exact .inr ⟨[.unbind ⟨0⟩], [], rfl, ok_of_isSome compiles⟩

/-- Not always is a handler that left gone at once. -/
theorem leaver_runs_on :
    ¬ ∀ {root : String} {engine : Engine} {extend : Bool} {clock : WallClock} {disk : FileTree}
        {t : Trace},
      (Trace.load root engine extend clock).outcome? disk = some t →
      ∀ (ops : List Operation) (op : Operation) (later : List Operation) (id : String)
        (d : Key .dispatcher),
        let before := t.project.run ops
        let after := op.perform before
        id ∈ before.graph.memberIds d → id ∉ after.graph.memberIds d →
          (∀ g ∈ after.passed later, id ∉ g.memberIds d) →
          ∀ program, (after.run later).graph.programOf d = some program → ∀ entry ∈ program.entries,
            entry.owner ≠ id := by
  intro all
  obtain ⟨t, loaded, -, -, -, there, left, stays, -⟩ := trio_parts
  obtain ⟨program, holds, runs⟩ := (Option.any_eq_true _ _).1 stays
  obtain ⟨entry, mem, own⟩ := List.any_eq_true.1 runs
  refine all loaded [] (.unbind ⟨2⟩) [] "c" ⟨0⟩ ?_ ?_ nofun program holds entry mem
    (by simpa using own)
  · change "c" ∈ t.project.graph.memberIds ⟨0⟩
    rw [there]
    decide
  · change "c" ∉ (t.project.graph.unbindAll ⟨2⟩).memberIds ⟨0⟩
    rw [left]
    decide

end Project
end ScriptHost
