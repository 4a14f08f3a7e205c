import ScriptHost.Proofs.Script.Calling
import ScriptHost.Proofs.Script.Stepping
/-!
# Calls stay balanced

A call counts itself in the context, and so it has to take itself out again whichever way its
routine ends. `turns_of_next?` says what a step can do about calls: nothing, enter one, refuse one,
or leave one. The rest follows from the four cases.

**Counting.** `openCalls` are the calls that wait for their routine. A stage is `Counted` if the
context says how many of them there are, on top of the depth that the run started at, and has the
routines of the unit. A stage `Raises` an error if the error comes about in the step from it; a step
that only hands an error on raises none.

**Results.**
* `Counted.leads`: every stage of a run that starts counted is counted.
* `raises_depthExceeded_iff`: the error of too deep a call comes about exactly where a routine that
  is there is called at the limit.
* `calls_stay_balanced`: both told of the runs of every block of every unit, and of those behind
  other routines of a program.
-/
namespace ScriptHost

open Stage

/-! ## What a step does about calls -/

/-- The calls that wait for their routine. -/
def openCalls : List Frame → Nat
  | [] => 0
  | .leave :: frames => openCalls frames + 1
  | _ :: frames => openCalls frames

/-- The depth that an error says a call was refused at. -/
def ScriptError.refusedAt? : ScriptError → Option Nat
  | .depthExceeded depth => some depth
  | _ => none

/-- The depth that the answer, if it is there, says a call was refused at. -/
def Control.refusedAt? : Control → Option Nat
  | .answer (.error error) => error.refusedAt?
  | _ => none

theorem Control.refusedAt?_eq_some {control : Control} {depth : Nat} :
    control.refusedAt? = some depth ↔ control = .answer (.error (.depthExceeded depth)) := by
  rcases control with _ | _ | (_ | _) | _ <;> simp [refusedAt?, ScriptError.refusedAt?]

/-- What is done between one stage and the next about calls. -/
inductive Stage.Turns : Stage → Stage → Prop
  | stays {now later : Stage} (calls : openCalls later.frames = openCalls now.frames)
    (depth : later.context.depth = now.context.depth)
    (routines : later.context.routines = now.context.routines)
    (refused : later.control.refusedAt? = none ∨
      later.control.refusedAt? = now.control.refusedAt?) : Turns now later
  | enters {name : String} {routine : Statement} {frames : List Frame} {context : Context}
    (found : context.routines.bind (·.get? name) = some routine)
    (room : context.depth < maxCallDepth) :
    Turns ⟨.run (.call name), frames, context⟩
      ⟨.run routine, .leave :: frames, { context with depth := context.depth + 1 }⟩
  | refuses {name : String} {routine : Statement} {frames : List Frame} {context : Context}
    (found : context.routines.bind (·.get? name) = some routine)
    (full : ¬ context.depth < maxCallDepth) :
    Turns ⟨.run (.call name), frames, context⟩
      ⟨.answer (.error (.depthExceeded context.depth)), frames, context⟩
  | leaves {result : Except ScriptError Value} {frames : List Frame} {context : Context} :
    Turns ⟨.answer result, .leave :: frames, context⟩
      ⟨.answer result, frames, { context with depth := context.depth - 1 }⟩

/-- What runs no statement does nothing about calls. -/
def Quiet (next : Run Control) : Prop :=
  ∀ frames context, (proceed next frames context).frames = frames ∧
    (proceed next frames context).context.depth = context.depth ∧
    (proceed next frames context).context.routines = context.routines ∧
    (proceed next frames context).control.refusedAt? = none

namespace Quiet

theorem fails {error : ScriptError} (other : error.refusedAt? = none) :
    Quiet (throwThe ScriptError error) :=
  fun _ _ => ⟨rfl, rfl, rfl, other⟩

/-- A parameter that is known is used up quietly. -/
theorem apply {α : Type} (use : Use α) (a : α) : Quiet (use.apply a) := by
  cases use with
  | print | assign _ | wait | negate => exact fun _ _ => ⟨rfl, rfl, rfl, rfl⟩
  | choose whenTrue whenFalse =>
    cases a with
    | true => exact fun _ _ => ⟨rfl, rfl, rfl, rfl⟩
    | false => cases whenFalse <;> exact fun _ _ => ⟨rfl, rfl, rfl, rfl⟩
  | throw =>
    refine fails ?_
    unfold ScriptError.ofMessage
    split
    · split <;> rfl
    · rfl

/-- So is one that has to be read off a value first. -/
theorem read {α : Type} (use : Use α) (value : Value) :
    Quiet (do use.apply (← (liftM (use.read value) : Run _))) := by
  cases result : use.read value with
  | ok a => exact apply use a
  | error error =>
    refine fails ?_
    cases use with
    | wait =>
      obtain ⟨expected, rfl⟩ := uint64_mismatch result
      rfl
    | print | assign _ | negate | choose _ _ | throw => cases result

theorem turns {next : Run Control} (quiet : Quiet next) {now : Stage} {frames : List Frame}
    (calls : openCalls frames = openCalls now.frames) :
    Turns now (proceed next frames now.context) := by
  obtain ⟨same, depth, routines, refused⟩ := quiet frames now.context
  exact .stays (by rw [same, calls]) depth routines (.inl refused)

end Quiet

namespace Stage

variable {frames : List Frame} {context : Context}

theorem turns_ask {α : Type} (use : Use α) (param : Param Statement α) {s : Statement} :
    Turns ⟨.run s, frames, context⟩ (ask use param frames context) := by
  cases param with
  | constant a => exact (Quiet.apply use a).turns rfl
  | deferred t => exact .stays rfl rfl rfl (.inl rfl)

theorem turns_start (s : Statement) :
    Turns ⟨.run s, frames, context⟩ (start s frames context) := by
  cases s with
  | literal _ | reference _ | block _ | attempt _ _ | host _ _ _ =>
    exact .stays rfl rfl rfl (.inl rfl)
  | print _ | assign _ _ | negate _ | choose _ _ _ | throw _ | wait _ => exact turns_ask ..
  | call name =>
    rw [start]
    split
    · exact .stays rfl rfl rfl (.inl rfl)
    · rename_i routine found
      split
      · rename_i room
        exact .enters found room
      · rename_i full
        exact .refuses found full

/-- A host action fails in its own name, so never with the error of a call. -/
theorem turns_act (name : String) (arguments : List (Param Statement Value)) (steps : HostSteps) :
    Turns ⟨.act name arguments steps, frames, context⟩
      (act name arguments steps frames context) := by
  cases steps with
  | finish result =>
    refine .stays rfl rfl rfl (.inl ?_)
    rcases result with (_ | _) | _ <;> rfl
  | argument index next =>
    rw [act]
    split <;> exact .stays rfl rfl rfl (.inl rfl)
  | event _ | getVariable _ _ | setVariable _ _ _ | removeVariable _ _ | print _ _ | pause _ _ =>
    exact .stays rfl rfl rfl (.inl rfl)

theorem turns_hand (result : Except ScriptError Value) (frame : Frame) :
    Turns ⟨.answer result, frame :: frames, context⟩ (hand result frame frames context) := by
  cases frame with
  | leave => exact .leaves
  | reply name arguments next => exact .stays rfl rfl rfl (.inl rfl)
  | rest body =>
    cases result with
    | error error => cases body <;> exact .stays rfl rfl rfl (.inr rfl)
    | ok value => cases body <;> exact .stays rfl rfl rfl (.inl rfl)
  | use use =>
    cases result with
    | error error => exact .stays rfl rfl rfl (.inr rfl)
    | ok value => exact (Quiet.read use value).turns rfl
  | attempt clauses =>
    cases result with
    | error error =>
      cases clauses with
      | nil => exact .stays rfl rfl rfl (.inr rfl)
      | cons clause clauses =>
        rw [hand]
        split
        · exact .stays rfl rfl rfl (.inl rfl)
        · exact .stays rfl rfl rfl (.inr rfl)
    | ok value => cases clauses <;> exact .stays rfl rfl rfl (.inl rfl)

/-- What a step can do about calls. -/
theorem turns_of_next? {now later : Stage} (step : now.next? = some later) : Turns now later :=
  of_next? (fun s _ _ => turns_start s)
    (fun name arguments steps _ _ => turns_act name arguments steps)
    (fun result frame _ _ => turns_hand result frame) step

end Stage

/-! ## Counted stages -/

/-- The context counts the open calls, on top of the depth that the run started at, and calls find
the routines of the unit. -/
structure Stage.Counted (base : Nat) (routines : Table Statement) (stage : Stage) : Prop where
  depth : stage.context.depth = base + openCalls stage.frames
  bounded : stage.context.depth ≤ maxCallDepth
  routines : stage.context.routines = some routines

namespace Stage.Counted

variable {base : Nat} {routines : Table Statement} {start now later : Stage}

/-- One step keeps the count. -/
theorem next (counted : now.Counted base routines) (step : now.next? = some later) :
    later.Counted base routines := by
  obtain ⟨depth, bounded, same⟩ := counted
  cases turns_of_next? step with
  | stays calls kept kept' _ =>
    exact ⟨by rw [kept, depth, calls], by rw [kept]; exact bounded, by rw [kept', same]⟩
  | enters found room =>
    -- The guard of the call is what bounds the depth.
    refine ⟨?_, room, same⟩
    simp only [openCalls] at depth ⊢
    omega
  | refuses found full => exact ⟨depth, bounded, same⟩
  | leaves =>
    refine ⟨?_, Nat.le_trans (Nat.sub_le _ _) bounded, same⟩
    simp only [openCalls] at depth ⊢
    omega

theorem leads (counted : start.Counted base routines) (h : Leads start later) :
    later.Counted base routines := by
  induction h with
  | refl => exact counted
  | tail _ step ih => exact ih.next step

end Stage.Counted

/-! ## Calls that go too deep -/

/-- An error comes about at this stage: the next one has it, and this one has none to hand on. -/
def Stage.Raises (stage : Stage) (error : ScriptError) : Prop :=
  (∀ other, stage.control ≠ .answer (.error other)) ∧
    ∃ later, stage.next? = some later ∧ later.control = .answer (.error error)

/-- The error of too deep a call comes about exactly where a routine that is there is called at the
limit, and it tells the depth there. -/
theorem Stage.raises_depthExceeded_iff {stage : Stage} {depth : Nat} :
    stage.Raises (.depthExceeded depth) ↔ depth = stage.context.depth ∧
      maxCallDepth ≤ stage.context.depth ∧ ∃ name routine, stage.control = .run (.call name) ∧
        stage.context.routines.bind (·.get? name) = some routine := by
  constructor
  · rintro ⟨none, later, step, raised⟩
    cases turns_of_next? step with
    | stays _ _ _ refused =>
      -- Only an error that is handed on could look like one of a call.
      rw [Control.refusedAt?_eq_some.2 raised] at refused
      rcases refused with refused | refused
      · cases refused
      · exact absurd (Control.refusedAt?_eq_some.1 refused.symm) (none _)
    | enters => cases raised
    | refuses found full =>
      cases raised
      exact ⟨rfl, Nat.le_of_not_lt full, _, _, rfl, found⟩
    | leaves => exact absurd raised (none _)
  · obtain ⟨control, frames, context⟩ := stage
    rintro ⟨rfl, full, name, routine, rfl, found⟩
    exact ⟨nofun, _, next?_refused found (Nat.not_lt.2 full), rfl⟩

/-! ## Units -/

/-- The run of a block is balanced. -/
structure CompiledUnit.Balanced (unit : CompiledUnit) (block : String) (context : Context) :
    Prop where
  /-- The stages of the run lead to the answer of `invoke`. -/
  answered : ∃ after, Leads (unit.opening block context)
      ⟨.answer (unit.invoke block context).1, [], after⟩ ∧
    (unit.invoke block context).2 = { after with routines := context.routines }
  /-- However the run ends, its context has the depth and the routines that it had before. -/
  restored : (unit.invoke block context).2.depth = context.depth ∧
    (unit.invoke block context).2.routines = context.routines
  /-- Meanwhile the depth counts the open calls, and it is never above the limit. -/
  counted : ∀ stage, Leads (unit.opening block context) stage →
    stage.Counted context.depth unit.blocks
  /-- Calls go too deep exactly where a routine of the unit is called at the limit. -/
  refused : ∀ stage, Leads (unit.opening block context) stage → ∀ depth,
    stage.Raises (.depthExceeded depth) ↔ depth = maxCallDepth ∧
      stage.context.depth = maxCallDepth ∧
        ∃ name, stage.control = .run (.call name) ∧ unit.contains name

theorem CompiledUnit.balanced (unit : CompiledUnit) (block : String) {context : Context}
    (room : context.depth ≤ maxCallDepth) : unit.Balanced block context := by
  obtain ⟨after, leads, same⟩ := unit.leads_invoke block context
  have opened : (unit.opening block context).Counted context.depth unit.blocks := ⟨rfl, room, rfl⟩
  refine ⟨⟨after, leads, same⟩, ?_, fun stage leads => opened.leads leads,
    fun stage leads depth => ?_⟩
  · rw [same]
    exact ⟨(opened.leads leads).depth, rfl⟩
  · obtain ⟨-, bounded, routines⟩ := opened.leads leads
    have known (name : String) : unit.contains name ↔
        ∃ routine, stage.context.routines.bind (·.get? name) = some routine := by
      rw [routines]
      exact Option.isSome_iff_exists
    rw [raises_depthExceeded_iff]
    constructor
    · rintro ⟨rfl, full, name, routine, call, found⟩
      have limit := Nat.le_antisymm bounded full
      exact ⟨limit, limit, name, call, (known name).2 ⟨routine, found⟩⟩
    · rintro ⟨rfl, limit, name, call, there⟩
      obtain ⟨routine, found⟩ := (known name).1 there
      exact ⟨limit.symm, Nat.le_of_eq limit.symm, name, routine, call, found⟩

/-- Running routines of a unit leaves the depth and the routines of the context as they were, also
if one of them fails. -/
theorem Program.runEntries_restores (unit : CompiledUnit) (entries : List ProgramEntry)
    {context : Context} (room : context.depth ≤ maxCallDepth) :
    (runEntries unit entries context).2.depth = context.depth ∧
      (runEntries unit entries context).2.routines = context.routines := by
  induction entries generalizing context with
  | nil => exact ⟨rfl, rfl⟩
  | cons entry rest ih =>
    obtain ⟨depth, routines⟩ := (unit.balanced entry.block room).restored
    rw [runEntries]
    split
    · rename_i value after ran
      rw [ran] at depth routines
      have room' : after.depth ≤ maxCallDepth := depth ▸ room
      obtain ⟨depth', routines'⟩ := ih room'
      exact ⟨depth'.trans depth, routines'.trans routines⟩
    · rename_i error after ran
      rw [ran] at depth routines
      exact ⟨depth, routines⟩

/-- Every block of a unit runs balanced, and so does every routine that a program runs: those before
it leave the context with the depth and the routines that it had. A new context has the depth zero,
so none is ever above the limit. -/
theorem calls_stay_balanced (unit : CompiledUnit) {context : Context}
    (room : context.depth ≤ maxCallDepth) :
    (∀ block, unit.Balanced block context) ∧ ∀ before : List ProgramEntry,
      let left := (Program.runEntries unit before context).2
      left.depth = context.depth ∧ left.routines = context.routines ∧
        ∀ block, unit.Balanced block left := by
  refine ⟨fun block => unit.balanced block room, fun before => ?_⟩
  obtain ⟨depth, routines⟩ := Program.runEntries_restores unit before room
  exact ⟨depth, routines, fun block => unit.balanced block (by rw [depth]; exact room)⟩

/-- A unit with one routine, which calls itself. -/
def endlessUnit : CompiledUnit where
  source := "def main = \x7b call main \x7d"
  namespaces := []
  blocks := Table.empty.insert "main" (.block [.call "main"])

theorem endlessUnit_main : endlessUnit.blocks.get? "main" = some (.block [.call "main"]) := by
  simp [endlessUnit]

theorem Statement.eval_call_fails {onCall : String → Run Value} {name : String} {context : Context}
    {error : ScriptError} (failed : (onCall name context).1 = .error error) :
    ((Statement.block [.call name]).eval onCall context).1 = .error error := by
  rw [Statement.eval, Statement.evalAll, Run.bind_apply, Statement.eval]
  generalize onCall name context = result at failed ⊢
  obtain ⟨_ | value, after⟩ := result
  · exact failed
  · cases failed

/-- It calls itself until the limit refuses it. -/
theorem endlessUnit_exceeds (levels : Nat) {context : Context}
    (same : context.routines = some endlessUnit.blocks)
    (left : context.depth + levels = maxCallDepth) :
    (callRoutine levels "main" context).1 = .error (.depthExceeded maxCallDepth) := by
  have found : context.routines.bind (·.get? "main") = some (.block [.call "main"]) := by
    rw [same]
    exact endlessUnit_main
  induction levels generalizing context with
  | zero =>
    rw [callRoutine_refused found, ← left]
    rfl
  | succ levels ih =>
    rw [callRoutine_entered found]
    exact Statement.eval_call_fails (ih same (by simp only; omega) found)

theorem endless_calls_stay_balanced : ({} : Context).depth ≤ maxCallDepth ∧
    (endlessUnit.invoke "main" {}).1 = .error (.depthExceeded maxCallDepth) ∧
      endlessUnit.Balanced "main" {} := by
  have room : ({} : Context).depth ≤ maxCallDepth := Nat.zero_le _
  refine ⟨room, ?_, (calls_stay_balanced endlessUnit room).1 "main"⟩
  simp only [CompiledUnit.invoke, endlessUnit_main, Statement.run]
  exact Statement.eval_call_fails (endlessUnit_exceeds _ rfl rfl)

end ScriptHost
