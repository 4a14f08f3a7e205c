import ScriptHost.Proofs.Script.Stepping
/-!
# What a run prints

Nothing that a run has printed is taken back: each step leaves the output as it is or adds one item
at its end. So what comes first is what the first statement that prints has printed, whatever is run
behind it.

**Results.**
* `Stage.next?_printsOn`, `Stage.Leads.printsOn`: the output of a stage is where the output of each
  later one starts.
* `Statement.run_printsOn`: so is the output that a statement starts with where that of its run
  does.
* `Statement.run_block_print`, `CompiledUnit.invoke_printsOn`: a line that a block prints first is
  there before the rest of it runs, and stays there.
-/
namespace ScriptHost

open Stage

/-- The output of one context is where that of the other starts. -/
def Context.PrintsOn (before after : Context) : Prop :=
  before.output.toList <+: after.output.toList

namespace Context.PrintsOn

variable {before middle after : Context}

theorem same (h : after.output = before.output) : PrintsOn before after := by
  show before.output.toList <+: after.output.toList
  exact h ▸ List.prefix_refl before.output.toList

theorem push {item : Output} (h : after.output = before.output.push item) :
    PrintsOn before after := by
  rw [PrintsOn, h, Array.toList_push]
  exact List.prefix_append ..

theorem trans (h : PrintsOn before middle) (h' : PrintsOn middle after) : PrintsOn before after :=
  List.IsPrefix.trans h h'

end Context.PrintsOn

/-! ## Steps -/

/-- A computation adds to the output at most. -/
def Run.PrintsOn {α : Type} (m : Run α) : Prop :=
  ∀ context : Context, context.PrintsOn (m context).2

namespace Stage

variable {frames : List Frame} {context : Context}

theorem proceed_printsOn {next : Run Control} (prints : next.PrintsOn) :
    context.PrintsOn (proceed next frames context).context := by
  have kept := prints context
  rw [proceed]
  generalize next context = result at kept ⊢
  obtain ⟨_ | _, _⟩ := result <;> exact kept

theorem apply_printsOn {α : Type} (use : Use α) (a : α) : Run.PrintsOn (use.apply a) := by
  intro context
  cases use with
  | print | wait => exact .push rfl
  | assign _ | negate | throw => exact .same rfl
  | choose whenTrue whenFalse =>
    cases a with
    | true => exact .same rfl
    | false => cases whenFalse <;> exact .same rfl

theorem read_printsOn {α : Type} (use : Use α) (value : Value) :
    Run.PrintsOn (do use.apply (← (liftM (use.read value) : Run _))) := by
  cases result : use.read value with
  | ok a => exact apply_printsOn use a
  | error _ => exact fun _ => .same rfl

theorem ask_printsOn {α : Type} (use : Use α) (param : Param Statement α) :
    context.PrintsOn (ask use param frames context).context := by
  cases param with
  | constant a => exact proceed_printsOn (apply_printsOn use a)
  | deferred s => exact .same rfl

theorem start_printsOn (s : Statement) : context.PrintsOn (start s frames context).context := by
  cases s with
  | literal _ | reference _ | block _ | attempt _ _ | host _ _ _ => exact .same rfl
  | print _ | assign _ _ | negate _ | choose _ _ _ | throw _ | wait _ => exact ask_printsOn ..
  | call name =>
    rw [start]
    split
    · exact .same rfl
    · split <;> exact .same rfl

theorem act_printsOn (name : String) (arguments : List (Param Statement Value))
    (steps : HostSteps) : context.PrintsOn (act name arguments steps frames context).context := by
  cases steps with
  | finish _ | event _ | getVariable _ _ | setVariable _ _ _ | removeVariable _ _ => exact .same rfl
  | argument index next =>
    rw [act]
    split <;> exact .same rfl
  | print _ _ | pause _ _ => exact .push rfl

theorem hand_printsOn (result : Except ScriptError Value) (frame : Frame) :
    context.PrintsOn (hand result frame frames context).context := by
  cases frame with
  | leave | reply _ _ _ => exact .same rfl
  | rest body => cases result <;> cases body <;> exact .same rfl
  | use use =>
    cases result with
    | error _ => exact .same rfl
    | ok value => exact proceed_printsOn (read_printsOn use value)
  | attempt clauses =>
    cases result with
    | ok _ => cases clauses <;> exact .same rfl
    | error error =>
      cases clauses with
      | nil => exact .same rfl
      | cons clause clauses =>
        rw [hand]
        split <;> exact .same rfl

/-- A step adds to the output at most. -/
theorem next?_printsOn {now later : Stage} (step : now.next? = some later) :
    now.context.PrintsOn later.context :=
  of_next? (P := fun now later => now.context.PrintsOn later.context)
    (fun s _ _ => start_printsOn s)
    (fun name arguments steps _ _ => act_printsOn name arguments steps)
    (fun result frame _ _ => hand_printsOn result frame) step

/-- So do any number of steps. -/
theorem Leads.printsOn {now later : Stage} (h : Leads now later) :
    now.context.PrintsOn later.context := by
  induction h with
  | refl => exact .same rfl
  | tail _ step ih => exact ih.trans (next?_printsOn step)

end Stage

/-! ## Blocks -/

namespace Statement

theorem run_printsOn (s : Statement) (context : Context) :
    context.PrintsOn (s.run context).2 :=
  (s.leads_run [] context).printsOn

/-- Behind a line that is printed first a block runs as it does without it. -/
theorem run_block_print (line : String) (others : List Statement) (context : Context) :
    (block (print (.constant line) :: others)).run context =
      (block others).run { context with output := context.output.push (.line line) } := by
  rw [run, run, eval, eval, evalAll, eval]
  rfl

end Statement

/-- The line that a block prints first stays first in its output. -/
theorem CompiledUnit.invoke_printsOn {unit : CompiledUnit} {name line : String}
    {others : List Statement}
    (found : unit.blocks.get? name = some (.block (.print (.constant line) :: others)))
    (context : Context) :
    ({ context with output := context.output.push (.line line) } : Context).PrintsOn
      (unit.invoke name context).2 := by
  rw [invoke, found]
  simp only [Statement.run_block_print]
  exact (Statement.block others).run_printsOn
    { context with output := context.output.push (.line line), routines := some unit.blocks }

end ScriptHost
