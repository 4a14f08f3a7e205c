import Mathlib.Data.List.Pairwise
import ScriptHost.Proofs.Dispatch.Programs
import ScriptHost.Proofs.Script.Calling
import ScriptHost.Proofs.Script.Named
/-!
# Entries have their routines

A dispatcher's source is compiled under the namespaces of all its members, under which the words
of a member may mean something else. Even so the unit has every routine of every member: its name
stands before an equals sign, and that makes it a routine whatever the words mean.

**Results.**
* `joined_contains`: a dispatcher's unit has all routines of its members' units.
* `separate_of_compiles`: and each of them from one member only.
* `MadeOf.provided`: a program that was made of handlers is `Program.Provided`: its unit has the
  routines that its entries name and that its routines call.
* `Program.Provided.run`, `Dispatcher.run_provided`: such a program does not fail for want of a
  routine.
-/
namespace ScriptHost

open Grammar Scanner

/-! ## Programs -/

/-- A program whose unit has the routines that its entries name and all that they call. -/
structure Program.Provided (program : Program) : Prop where
  resolved : Resolved program.unit.blocks
  there : ∀ entry ∈ program.entries, program.unit.contains entry.block

/-- A program that has its routines does not fail for want of one. -/
theorem Program.Provided.run {program : Program} (provided : program.Provided) {context : Context}
    {failure : EntryFailure} (failed : (program.run context).1 = .error failure) (name : String) :
    failure.error ≠ .blockNotFound name := by
  have entries : ∀ (list : List ProgramEntry) (context : Context),
      (∀ entry ∈ list, program.unit.contains entry.block) →
      ∀ failure, (runEntries program.unit list context).1 = some failure →
        failure.error ≠ .blockNotFound name := by
    intro list
    induction list with
    | nil => exact fun _ _ _ => nofun
    | cons entry rest ih =>
      intro context there failure failed
      have finds := (CompiledUnit.invoke_finds provided.resolved (there entry (.head _)) context).2
      rw [runEntries] at failed
      generalize program.unit.invoke entry.block context = result at finds failed
      obtain ⟨error | value, after⟩ := result
      · cases failed
        exact fun same => finds name (congrArg _ same)
      · exact ih after (fun other mem => there other (.tail _ mem)) failure failed
  have each := entries program.entries context provided.there failure
  rw [Program.run] at failed
  generalize runEntries program.unit program.entries context = result at each failed
  obtain ⟨_ | other, after⟩ := result
  · cases failed
  · cases failed
    exact each rfl

/-- A dispatcher whose program has its routines fails with what a handler failed with, and that is
not for want of a routine. -/
theorem Dispatcher.run_provided {dispatcher : Dispatcher}
    (provided : ∀ program, dispatcher.program = some program → program.Provided)
    {context : Context} {failure : DispatchError}
    (failed : (dispatcher.run context).1 = .error failure) :
    ∃ handler error, failure = .handlerFailed dispatcher.id handler error ∧
      ∀ name, error ≠ .blockNotFound name := by
  rw [Dispatcher.run] at failed
  split at failed
  · cases failed
  · rename_i program holds
    have runs := @Program.Provided.run program (provided program holds) context
    simp only at failed
    generalize program.run context = result at runs failed
    obtain ⟨problem | count, after⟩ := result
    · cases failed
      exact ⟨_, _, rfl, runs rfl⟩
    · cases failed

namespace DispatchGraph

/-! ## Joined units -/

section

variable {engine : Engine} {unit : CompiledUnit} {units : List CompiledUnit}
  {kinds : List TokenKind} {list : Definitions} {name : String}

theorem Assembled.names (h : Assembled engine unit kinds list) :
    Grammar.names kinds = list.map (·.1) := by
  obtain ⟨actions, -, defines⟩ := h.made
  have all := defines.names
  rw [names_append (by simp)] at all
  simpa [Grammar.names] using all

theorem AssembledAll.names (h : AssembledAll engine units kinds list) :
    Grammar.names kinds = list.map (·.1) := by
  induction h with
  | nil => rfl
  | @cons _ _ _ units kinds' _ first rest ih =>
    have apart : kinds'.head? ≠ some .equals := by
      cases rest with
      | nil => simp
      | cons next _ => simp [next.starts]
    rw [names_append apart, first.names, ih, List.map_append]

variable {handlers : List Handler} {joint : Program}

/-- A dispatcher's unit has the routines of its members' units by name, whatever their words mean
in it. -/
theorem joined_definitions (own : ∀ h ∈ handlers, h.HoldsOwn engine)
    (made : (joinedSource handlers).compile engine = .ok joint) (nonempty : unitsOf handlers ≠ []) :
    ∃ kinds list list', AssembledAll engine (unitsOf handlers) kinds list ∧
      list'.map (·.1) = list.map (·.1) ∧ link .empty list' = .ok joint.unit.blocks := by
  obtain ⟨kinds, list, all⟩ := assembled_all (assembled_of_own own)
  have scans : Scans (joinedSource handlers).text.toList kinds := joinedSource_text own ▸ all.scans
  obtain ⟨made, -⟩ := ProgramSource.compile_ok_iff.1 made
  obtain ⟨-, -, actions, list', -, defines, linked, -⟩ :=
    (Engine.compile_routines_iff scans (all.starts nonempty)).1 made
  refine ⟨kinds, list, list', all, ?_, linked⟩
  have same := defines.names
  rw [names_append (by simp), all.names] at same
  simpa [Grammar.names] using same.symm

theorem joined_contains (own : ∀ h ∈ handlers, h.HoldsOwn engine)
    (made : (joinedSource handlers).compile engine = .ok joint)
    (mem : unit ∈ unitsOf handlers) (known : unit.contains name) : joint.unit.contains name := by
  obtain ⟨kinds, list, list', all, same, linked⟩ :=
    joined_definitions own made (List.ne_nil_of_mem mem)
  have named : name ∈ list'.map (·.1) := same ▸ all.mem_names.2 ⟨unit, mem, known⟩
  obtain ⟨⟨_, body⟩, mem, rfl⟩ := List.mem_map.1 named
  have found : joint.unit.blocks.get? _ = some (.block body) :=
    (get?_link linked).2 (.inr ⟨body, mem, rfl⟩)
  simp [CompiledUnit.contains, Table.contains, found]

theorem Separate.only {h other : Handler} {program program' : Program}
    (separate : Separate (unitsOf handlers)) (mem : h ∈ handlers) (mem' : other ∈ handlers)
    (holds : h.program = some program) (holds' : other.program = some program')
    (known : program.unit.contains name) (known' : program'.unit.contains name) : other = h := by
  let Apart (h other : Handler) : Prop := ∀ program program', h.program = some program →
    other.program = some program' → ∀ name,
    ¬ (program.unit.contains name ∧ program'.unit.contains name)
  have symm : Std.Symm Apart := ⟨fun _ _ apart program program' holds holds' name both =>
    apart program' program holds' holds name both.symm⟩
  have apart : handlers.Pairwise Apart := by
    refine (List.pairwise_filterMap.1 separate).imp fun apart program program' holds holds' => ?_
    exact apart _ (by rw [holds]; rfl) _ (by rw [holds']; rfl)
  by_contra differ
  exact apart.forall mem' mem differ _ _ holds' holds name ⟨known', known⟩

/-- If the source of a dispatcher compiles, no two of its members define a routine of one name. -/
theorem separate_of_compiles (own : ∀ h ∈ handlers, h.HoldsOwn engine)
    (made : (joinedSource handlers).compile engine = .ok joint) : Separate (unitsOf handlers) := by
  by_cases nonempty : unitsOf handlers = []
  · rw [nonempty]
    exact .nil
  · obtain ⟨kinds, list, list', all, same, linked⟩ := joined_definitions own made nonempty
    have apart : (list'.map (·.1)).Nodup := (link_ok_iff.1 ⟨_, linked⟩).1
    exact all.nodup_iff.1 (same ▸ apart)

end

theorem MadeOf.provided {engine : Engine} {P : String → Prop} {program : Program}
    (made : MadeOf engine P program) : program.Provided := by
  obtain ⟨handlers, kind, compiled⟩ := made
  have own : ∀ h ∈ handlers, h.HoldsOwn engine := fun h mem => (kind h mem).2
  obtain ⟨made, entries⟩ := ProgramSource.compile_ok_iff.1 compiled
  refine ⟨Engine.resolved_of_compile made, fun entry mem => ?_⟩
  rw [entries, joinedSource, entries_joinSource] at mem
  obtain ⟨h, inside, eq⟩ := List.mem_filterMap.1 ((List.mem_append.1 mem).resolve_left (by simp))
  obtain ⟨program', holds, rfl⟩ := Option.map_eq_some_iff.1 eq
  obtain ⟨config, made'⟩ := own h inside program' holds
  exact joined_contains own compiled (mem_unitsOf.2 ⟨h, inside, program', holds, rfl⟩)
    (assembled_of_source made').1

end DispatchGraph
end ScriptHost
