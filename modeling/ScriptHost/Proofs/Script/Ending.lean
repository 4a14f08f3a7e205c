import ScriptHost.Proofs.Script.Stepping
import ScriptHost.Script.Program
/-!
# Runs end

Routines call themselves and each other as they like, from clauses and from arguments too, and a
clause that handled an error may call on. Still the stages of a run are finitely many. No step is
told how many are left: the only thing that stops a run is that calls nest at most `maxCallDepth`
deep.

**Counting.** `Stage.after` is the stage that comes after so many steps. A run `Ends` after as
many steps if the stage then has the answer and nothing waits for it; no stage follows.
`Program.Ends` adds up the steps of the routines that a program runs.

**Results.**
* `leads_iff`: a stage leads to those that come after some number of steps.
* `every_run_ends`: the run of every block of every unit ends, in every context, with the answer of
  `CompiledUnit.invoke`; so do the routines of every program, one after the other.
-/
namespace ScriptHost

open Stage

/-! ## Numbers of steps -/

namespace Stage

def after (start : Stage) : Nat → Option Stage
  | 0 => some start
  | steps + 1 => (start.after steps).bind next?

theorem leads_iff {start stage : Stage} :
    Leads start stage ↔ ∃ steps, start.after steps = some stage := by
  constructor
  · intro h
    induction h with
    | refl => exact ⟨0, rfl⟩
    | tail _ step ih =>
      obtain ⟨steps, comes⟩ := ih
      exact ⟨steps + 1, by rw [after, comes, Option.bind_some, step]⟩
  · rintro ⟨steps, comes⟩
    induction steps generalizing stage with
    | zero =>
      cases comes
      exact .refl start
    | succ steps ih =>
      obtain ⟨before, comes, step⟩ := Option.bind_eq_some_iff.1 comes
      exact (ih comes).trans (.single step)

/-- A run ends after this many steps, with a result and in a context. -/
structure Ends (start : Stage) (steps : Nat) (result : Except ScriptError Value)
    (context : Context) : Prop where
  comes : start.after steps = some ⟨.answer result, [], context⟩
  stops : ∀ more, steps < more → start.after more = none

theorem Ends.of_comes {start : Stage} {steps : Nat} {result : Except ScriptError Value}
    {context : Context} (comes : start.after steps = some ⟨.answer result, [], context⟩) :
    start.Ends steps result context := by
  refine ⟨comes, fun more later => ?_⟩
  induction later with
  | refl => rw [after, comes, Option.bind_some, next?]
  | step _ ih => rw [after, ih, Option.bind_none]

end Stage

/-- Running some routines of a unit ends after this many steps in all, with a failure or none and
in a context. -/
inductive Program.Ends (unit : CompiledUnit) :
    List ProgramEntry → Context → Nat → Option EntryFailure × Context → Prop
  | done (context : Context) : Ends unit [] context 0 (none, context)
  | failed {entry : ProgramEntry} {rest : List ProgramEntry} {context after : Context}
    {steps : Nat} {error : ScriptError} :
    (unit.opening entry.block context).Ends steps (.error error) after →
    Ends unit (entry :: rest) context steps
      (some ⟨entry.owner, error⟩, { after with routines := context.routines })
  | went {entry : ProgramEntry} {rest : List ProgramEntry} {context after : Context}
    {steps more : Nat} {value : Value} {outcome : Option EntryFailure × Context} :
    (unit.opening entry.block context).Ends steps (.ok value) after →
    Ends unit rest { after with routines := context.routines } more outcome →
    Ends unit (entry :: rest) context (steps + more) outcome

/-! ## All of them end -/

theorem CompiledUnit.opening_ends (unit : CompiledUnit) (block : String) (context : Context) :
    ∃ steps after, (unit.opening block context).Ends steps (unit.invoke block context).1 after ∧
      (unit.invoke block context).2 = { after with routines := context.routines } := by
  obtain ⟨after, leads, same⟩ := unit.leads_invoke block context
  obtain ⟨steps, comes⟩ := leads_iff.1 leads
  exact ⟨steps, after, .of_comes comes, same⟩

/-- Routines end one after the other, with the outcome of `runEntries`. -/
theorem Program.entries_end (unit : CompiledUnit) (entries : List ProgramEntry)
    (context : Context) :
    ∃ steps, Program.Ends unit entries context steps (runEntries unit entries context) := by
  induction entries generalizing context with
  | nil => exact ⟨0, .done context⟩
  | cons entry rest ih =>
    obtain ⟨steps, after, ends, same⟩ := unit.opening_ends entry.block context
    rw [runEntries]
    generalize unit.invoke entry.block context = answer at ends same
    obtain ⟨error | value, left⟩ := answer
    · cases same
      exact ⟨steps, .failed ends⟩
    · cases same
      obtain ⟨more, others⟩ := ih { after with routines := context.routines }
      exact ⟨steps + more, .went ends others⟩

/-- Every run ends, whatever calls what: each block of each unit after some number of steps, with
the value or the error that `invoke` gives, and so do the routines of each program. -/
theorem every_run_ends (unit : CompiledUnit) :
    (∀ block context, ∃ steps after,
      (unit.opening block context).Ends steps (unit.invoke block context).1 after ∧
        (unit.invoke block context).2 = { after with routines := context.routines }) ∧
      ∀ entries context, ∃ steps,
        Program.Ends unit entries context steps (Program.runEntries unit entries context) :=
  ⟨unit.opening_ends, Program.entries_end unit⟩

end ScriptHost
