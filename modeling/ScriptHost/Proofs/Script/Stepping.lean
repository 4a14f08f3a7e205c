import Mathlib.Logic.Relation
import ScriptHost.Proofs.Script.Linking
/-!
# Runs step by step

`Statement.eval` says what a run comes to. What happens meanwhile is told by the stages that the
run goes through: what it does next, what waits for the answer of that, and its context. The step
from a stage to the next one looks at nothing else. It recurses on nothing and counts nothing
either; whether a routine may be called is read off the context, as `call` finds it there.

**Results.**
* `Stage.next?`: the stage after a stage, none if the run is over.
* `Statement.leads_run`: the stages from a statement on lead to what `Statement.run` gives,
  whatever waits for it.
* `CompiledUnit.leads_invoke`: those of a block lead to what `CompiledUnit.invoke` gives.
-/
namespace ScriptHost

/-! ## Stages -/

/-- What a statement does with the value of its parameter. -/
inductive Use : Type → Type
  | print : Use String
  | assign (name : String) : Use Value
  | negate : Use Bool
  | choose (whenTrue : Statement) (whenFalse : Option Statement) : Use Bool
  | throw : Use String
  | wait : Use UInt64

/-- What a run does next. -/
inductive Control where
  | run (statement : Statement)
  /-- Takes the next of the steps that are left of a host action. -/
  | act (name : String) (arguments : List (Param Statement Value)) (steps : HostSteps)
  /-- A statement is over, with a value or an error. -/
  | answer (result : Except ScriptError Value)

/-- What waits for the answer of a statement. -/
inductive Frame : Type 1 where
  /-- The statements behind it in a block. -/
  | rest (body : List Statement)
  /-- The statement whose parameter it is. -/
  | use {α : Type} (use : Use α)
  /-- The clauses that may handle its error. -/
  | attempt (clauses : List (String × Statement))
  /-- The call of the routine that it is. -/
  | leave
  /-- The host action whose argument it is. -/
  | reply (name : String) (arguments : List (Param Statement Value))
    (next : Except ScriptError Value → HostSteps)

/-- A stage of a run; what waits is told from the inside out. -/
structure Stage where
  control : Control
  frames : List Frame
  context : Context

namespace Use

/-- What the parameter makes of the value of the statement that it waits for. -/
def read {α : Type} : Use α → Value → Except ScriptError α
  | print, value | throw, value => fromValue value
  | assign _, value => fromValue value
  | negate, value | choose .., value => fromValue value
  | wait, value => fromValue value

/-- What becomes of the statement once its parameter is known. -/
def apply {α : Type} : Use α → α → Run Control
  | print, line => do
    Run.emit (.line line)
    return .answer (.ok .null)
  | assign name, value => do
    Run.setVariable name value
    return .answer (.ok value)
  | negate, value => return .answer (.ok (.bool !value))
  | choose whenTrue whenFalse, condition =>
    if condition then return .run whenTrue
    else
      match whenFalse with
      | none => return .answer (.ok .null)
      | some statement => return .run statement
  | throw, message => throwThe ScriptError (.ofMessage message)
  | wait, milliseconds => do
    Run.emit (.pause milliseconds)
    return .answer (.ok .null)

end Use

namespace Stage

/-- The stage after something that runs no statement. -/
def proceed (next : Run Control) (frames : List Frame) (context : Context) : Stage :=
  match next context with
  | (.ok control, after) => ⟨control, frames, after⟩
  | (.error error, after) => ⟨.answer (.error error), frames, after⟩

def ask {α : Type} (use : Use α) (param : Param Statement α) (frames : List Frame)
    (context : Context) : Stage :=
  match param with
  | .constant value => proceed (use.apply value) frames context
  | .deferred statement => ⟨.run statement, .use use :: frames, context⟩

/-- Starts a statement. A block starts as one whose first statements were null. -/
def start (statement : Statement) (frames : List Frame) (context : Context) : Stage :=
  match statement with
  | .literal value => ⟨.answer (.ok value), frames, context⟩
  | .reference name => ⟨.answer (.ok ((context.scope.get? name).getD .null)), frames, context⟩
  | .block body => ⟨.answer (.ok .null), .rest body :: frames, context⟩
  | .print line => ask .print line frames context
  | .assign name value => ask (.assign name) value frames context
  | .negate value => ask .negate value frames context
  | .choose condition whenTrue whenFalse =>
    ask (.choose whenTrue whenFalse) condition frames context
  | .attempt body clauses => ⟨.run body, .attempt clauses :: frames, context⟩
  | .throw message => ask .throw message frames context
  | .call name =>
    match context.routines.bind (·.get? name) with
    | none => ⟨.answer (.error (.blockNotFound name)), frames, context⟩
    | some routine =>
      if context.depth < maxCallDepth then
        ⟨.run routine, .leave :: frames, { context with depth := context.depth + 1 }⟩
      else ⟨.answer (.error (.depthExceeded context.depth)), frames, context⟩
  | .wait milliseconds => ask .wait milliseconds frames context
  | .host name action arguments => ⟨.act name arguments action.steps, frames, context⟩

/-- Takes a step of a host action. -/
def act (name : String) (arguments : List (Param Statement Value)) (steps : HostSteps)
    (frames : List Frame) (context : Context) : Stage :=
  match steps with
  | .finish result => ⟨.answer (result.mapError (.fromAction name)), frames, context⟩
  | .argument index next =>
    match arguments[index]? with
    | none => ⟨.act name arguments (next (.ok .null)), frames, context⟩
    | some (.constant value) => ⟨.act name arguments (next (.ok value)), frames, context⟩
    | some (.deferred statement) => ⟨.run statement, .reply name arguments next :: frames, context⟩
  | .event next => ⟨.act name arguments (next context.event), frames, context⟩
  | .getVariable other next =>
    ⟨.act name arguments (next (context.scope.get? other)), frames, context⟩
  | .setVariable other value next =>
    proceed (do Run.setVariable other value; return .act name arguments next) frames context
  | .removeVariable other next =>
    proceed (do return .act name arguments (next (← Run.removeVariable other))) frames context
  | .print line next =>
    proceed (do Run.emit (.line line); return .act name arguments next) frames context
  | .pause milliseconds next =>
    proceed (do Run.emit (.pause milliseconds); return .act name arguments next) frames context

/-- Hands an answer to what waits for it. -/
def hand (result : Except ScriptError Value) (frame : Frame) (frames : List Frame)
    (context : Context) : Stage :=
  match frame, result with
  | .rest (statement :: body), .ok _ => ⟨.run statement, .rest body :: frames, context⟩
  | .use use, .ok value =>
    proceed (do use.apply (← (liftM (use.read value) : Run _))) frames context
  | .attempt ((pattern, body) :: clauses), .error error =>
    if error.isCaughtBy pattern then
      proceed (do Run.setVariable errorVariable (.string error.message); return .run body) frames
        context
    else ⟨.answer (.error error), .attempt clauses :: frames, context⟩
  | .leave, result => ⟨.answer result, frames, { context with depth := context.depth - 1 }⟩
  | .reply name arguments next, result => ⟨.act name arguments (next result), frames, context⟩
  | _, result => ⟨.answer result, frames, context⟩

/-- The stage after a stage; none if the run is over. -/
def next? : Stage → Option Stage
  | ⟨.run statement, frames, context⟩ => some (start statement frames context)
  | ⟨.act name arguments steps, frames, context⟩ => some (act name arguments steps frames context)
  | ⟨.answer result, frame :: frames, context⟩ => some (hand result frame frames context)
  | ⟨.answer _, [], _⟩ => none

/-- What holds of each kind of step holds of every step. -/
theorem of_next? {P : Stage → Stage → Prop} {now later : Stage}
    (starts : ∀ s frames context, P ⟨.run s, frames, context⟩ (start s frames context))
    (acts : ∀ name arguments steps frames context,
      P ⟨.act name arguments steps, frames, context⟩ (act name arguments steps frames context))
    (hands : ∀ result frame frames context,
      P ⟨.answer result, frame :: frames, context⟩ (hand result frame frames context))
    (step : now.next? = some later) : P now later := by
  obtain ⟨control, frames, context⟩ := now
  cases control with
  | run s =>
    cases step
    exact starts s frames context
  | act name arguments steps =>
    cases step
    exact acts name arguments steps frames context
  | answer result =>
    cases frames with
    | nil => cases step
    | cons frame frames =>
      cases step
      exact hands result frame frames context

/-- A run that is at one stage comes to another. -/
def Leads : Stage → Stage → Prop := Relation.ReflTransGen fun now later => now.next? = some later

theorem Leads.refl (stage : Stage) : Leads stage stage := Relation.ReflTransGen.refl

theorem Leads.single {now later : Stage} (step : now.next? = some later) : Leads now later :=
  Relation.ReflTransGen.single step

theorem Leads.trans {first second third : Stage} (h : Leads first second)
    (h' : Leads second third) : Leads first third :=
  Relation.ReflTransGen.trans h h'

/-- A stage leads where the next one does. -/
theorem Leads.next {now later last : Stage} (step : now.next? = some later)
    (h : Leads later last) : Leads now last :=
  Relation.ReflTransGen.head step h

theorem proceed_bind {α : Type} (first : Run α) (second : α → Run Control) (frames : List Frame)
    (context : Context) : proceed (first >>= second) frames context =
      match first context with
      | (.ok a, after) => proceed (second a) frames after
      | (.error error, after) => ⟨.answer (.error error), frames, after⟩ := by
  rw [proceed, Run.bind_apply]
  rcases first context with ⟨_ | a, after⟩ <;> rfl

end Stage

open Stage

/-! ## Results handed on -/

namespace Run

variable {α : Type}

/-- A computation that goes on where another succeeds looks at the result of that. -/
theorem bind_eq_observe (m : Run Value) (f : Value → Run α) :
    m >>= f = perform.observe m >>= fun
      | .ok value => f value
      | .error error => throwThe ScriptError error := by
  funext context
  rw [bind_apply, bind_apply, observe_apply]
  rcases m context with ⟨_ | value, after⟩ <;> rfl

/-- So does one that goes on where another fails. -/
theorem tryCatch_eq_observe (m : Run Value) (f : ScriptError → Run Value) :
    tryCatch m f = perform.observe m >>= fun
      | .ok value => pure value
      | .error error => f error := by
  funext context
  rw [tryCatch_apply, bind_apply, observe_apply]
  rcases m context with ⟨_ | value, after⟩ <;> rfl

theorem adapt_bind (f : ScriptError → ScriptError) {β : Type} (m : Run β) (g : β → Run α) :
    ExceptT.adapt f (m >>= g) = ExceptT.adapt f m >>= fun b => ExceptT.adapt f (g b) := by
  funext context
  rw [adapt_apply, bind_apply, bind_apply, adapt_apply]
  rcases m context with ⟨_ | b, after⟩ <;> rfl

theorem get_bind_apply (f : Context → Run α) (context : Context) :
    (MonadState.get >>= f) context = f context context := rfl

theorem modify_apply (f : Context → Context) (context : Context) :
    (modify f : Run Unit) context = (.ok (), f context) := rfl

end Run

/-! ## Where stages lead -/

/-- Stages of one kind, whatever waits and whatever the context, lead to what a computation comes
to, and that leaves the depth as it was. Told of contexts in which so many levels of calls are left.
-/
def Carries (levels : Nat) (stage : List Frame → Context → Stage) (m : Run Value) : Prop :=
  ∀ frames context, maxCallDepth - context.depth = levels →
    Leads (stage frames context) ⟨.answer (m context).1, frames, (m context).2⟩ ∧
      (m context).2.depth = context.depth

/-- A computation leaves the depth as it was. -/
def KeepsDepth {α : Type} (m : Run α) : Prop := ∀ context, (m context).2.depth = context.depth

namespace Carries

variable {levels : Nat} {stage later : List Frame → Context → Stage} {m : Run Value} {α : Type}
  {onCall : String → Run Value}

theorem next (h : Carries levels later m)
    (step : ∀ frames context, (stage frames context).next? = some (later frames context)) :
    Carries levels stage m := by
  intro frames context left
  obtain ⟨leads, kept⟩ := h frames context left
  exact ⟨leads.next (step frames context), kept⟩

theorem answer (result : Except ScriptError Value) :
    Carries levels (.mk (.answer result)) (ExceptT.mk (pure result)) :=
  fun _ _ _ => ⟨.refl _, rfl⟩

theorem bind (first : Run α) {next : α → Run Control} {m : α → Run Value}
    (keeps : KeepsDepth first) (h : ∀ a, Carries levels (proceed (next a)) (m a)) :
    Carries levels (proceed (first >>= next)) (first >>= m) := by
  intro frames context left
  have kept := keeps context
  rw [proceed_bind, Run.bind_apply]
  generalize first context = result at kept ⊢
  obtain ⟨error | a, after⟩ := result
  · exact ⟨.refl _, kept⟩
  · obtain ⟨leads, same⟩ := h a frames after (kept ▸ left)
    exact ⟨leads, same.trans kept⟩

theorem after (first : Run α) (control : α → Control) {m : α → Run Value}
    (keeps : KeepsDepth first) (h : ∀ a, Carries levels (.mk (control a)) (m a)) :
    Carries levels (proceed (first >>= fun a => pure (control a))) (first >>= m) :=
  bind first keeps h

/-- What comes next may depend on the context. -/
theorem get {later : Context → List Frame → Context → Stage} {m : Context → Run Value}
    (h : ∀ context, Carries levels (later context) (m context)) :
    Carries levels (fun frames context => later context frames context) (MonadState.get >>= m) :=
  fun frames context left => h context frames context left

/-- A statement comes first, and a frame waits for its answer. -/
theorem await {s : Statement} (frame : Frame) {finish : Except ScriptError Value → Run Value}
    (h : Carries levels (.mk (.run s)) (s.eval onCall))
    (resumes : ∀ result, Carries levels
      (fun frames => .mk (.answer result) (frame :: frames)) (finish result)) :
    Carries levels (fun frames => .mk (.run s) (frame :: frames))
      (Run.perform.observe (s.eval onCall) >>= finish) := by
  intro frames context left
  obtain ⟨leads, kept⟩ := h (frame :: frames) context left
  rw [Run.bind_apply, Run.observe_apply]
  generalize s.eval onCall context = result at leads kept ⊢
  obtain ⟨goes, same⟩ := resumes result.1 frames result.2 (kept ▸ left)
  exact ⟨leads.trans goes, same.trans kept⟩

/-! ### What waits -/

/-- A statement that asks for a parameter goes on with what it does with the value. -/
theorem ask [FromValue α] {use : Use α} {param : Param Statement α} {m : α → Run Value}
    (reads : use.read = fromValue)
    (parts : ∀ s ∈ param.statements, Carries levels (.mk (.run s)) (s.eval onCall))
    (applies : ∀ a, Carries levels (proceed (use.apply a)) (m a)) :
    Carries levels (ask use param) ((param.eval fun s _ => s.eval onCall) >>= m) := by
  cases param with
  | constant a => exact applies a
  | deferred s =>
    rw [Param.eval, bind_assoc, Run.bind_eq_observe]
    -- The frame reads the value off the answer, as the parameter does.
    refine await (.use use) (parts s (.head _)) fun result => ?_
    cases result with
    | error error => exact (answer (.error error)).next fun _ _ => rfl
    | ok value =>
      refine (bind (liftM (fromValue value : Except ScriptError α)) (fun _ => rfl) applies).next
        fun _ _ => ?_
      rw [← reads]
      rfl

/-- The statements behind one in a block follow one after the other. -/
theorem rest {body : List Statement}
    (parts : ∀ s ∈ body, Carries levels (.mk (.run s)) (s.eval onCall)) (last : Value) :
    Carries levels (fun frames => .mk (.answer (.ok last)) (.rest body :: frames))
      (Statement.evalAll onCall last body) := by
  induction body generalizing last with
  | nil =>
    rw [Statement.evalAll]
    exact (answer (.ok last)).next fun _ _ => rfl
  | cons s others ih =>
    rw [Statement.evalAll, Run.bind_eq_observe]
    refine (await (.rest others) (parts s (.head _)) fun result => ?_).next fun _ _ => rfl
    cases result with
    | error error =>
      refine (answer (.error error)).next fun _ _ => ?_
      cases others <;> rfl
    | ok value => exact ih (fun t mem => parts t (.tail _ mem)) value

/-- The clauses are tried one after the other. -/
theorem attempt {clauses : List (String × Statement)}
    (parts : ∀ clause ∈ clauses, Carries levels (.mk (.run clause.2)) (clause.2.eval onCall))
    (error : ScriptError) :
    Carries levels (fun frames => .mk (.answer (.error error)) (.attempt clauses :: frames))
      (Statement.handle onCall error clauses) := by
  induction clauses with
  | nil =>
    rw [Statement.handle]
    exact (answer (.error error)).next fun _ _ => rfl
  | cons clause others ih =>
    obtain ⟨pattern, body⟩ := clause
    rw [Statement.handle]
    split
    · rename_i caught
      refine (after (Run.setVariable errorVariable (.string error.message)) (fun _ => .run body)
        (fun _ => rfl) fun _ => parts (pattern, body) (.head _)).next fun _ _ => ?_
      rw [next?, hand, if_pos caught]
    · rename_i passed
      refine (ih fun clause mem => parts clause (.tail _ mem)).next fun _ _ => ?_
      rw [next?, hand, if_neg passed]

/-- The steps of a host action follow one after the other. -/
theorem act {name : String} {arguments : List (Param Statement Value)}
    (parts : ∀ s ∈ arguments.flatMap Param.statements,
      Carries levels (.mk (.run s)) (s.eval onCall)) (steps : HostSteps) :
    Carries levels (.mk (.act name arguments steps))
      (ExceptT.adapt (.fromAction name) (Run.perform
        (fun index => if h : index < arguments.length then
          arguments[index].eval fun s _ => s.eval onCall else pure .null) steps)) := by
  induction steps with
  | finish result => exact (answer (result.mapError (.fromAction name))).next fun _ _ => rfl
  | argument index following ih =>
    rw [Run.perform, Run.adapt_bind]
    split
    · rename_i inside
      have found : arguments[index]? = some arguments[index] := List.getElem?_eq_getElem inside
      cases param : arguments[index] with
      | constant value =>
        refine (ih (.ok value)).next fun _ _ => ?_
        rw [next?, Stage.act, found, param]
      | deferred s =>
        have mem : s ∈ arguments.flatMap Param.statements :=
          List.mem_flatMap.2 ⟨_, List.getElem_mem inside, by rw [param]; exact .head _⟩
        have asked : (Param.deferred s).eval (fun s _ => s.eval onCall) = s.eval onCall :=
          bind_pure _
        rw [asked]
        refine (await (.reply name arguments following) (parts s mem) fun result =>
          (ih result).next fun _ _ => rfl).next fun _ _ => ?_
        rw [next?, Stage.act, found, param]
    · rename_i outside
      have absent : arguments[index]? = none := List.getElem?_eq_none (Nat.le_of_not_lt outside)
      refine (ih (.ok .null)).next fun _ _ => ?_
      rw [next?, Stage.act, absent]
  | event following ih =>
    rw [Run.perform, Run.adapt_bind]
    exact (get fun context => ih context.event).next fun _ _ => rfl
  | getVariable other following ih =>
    rw [Run.perform, Run.adapt_bind]
    exact (get fun context => ih (context.scope.get? other)).next fun _ _ => rfl
  | setVariable other value following ih =>
    rw [Run.perform, Run.adapt_bind]
    exact (after (Run.setVariable other value) (fun _ => .act name arguments following)
      (fun _ => rfl) fun _ => ih).next fun _ _ => rfl
  | removeVariable other following ih =>
    rw [Run.perform, Run.adapt_bind]
    exact (after (Run.removeVariable other) (fun old => .act name arguments (following old))
      (fun _ => rfl) ih).next fun _ _ => rfl
  | print line following ih =>
    rw [Run.perform, Run.adapt_bind]
    exact (after (Run.emit (.line line)) (fun _ => .act name arguments following) (fun _ => rfl)
      fun _ => ih).next fun _ _ => rfl
  | pause milliseconds following ih =>
    rw [Run.perform, Run.adapt_bind]
    exact (after (Run.emit (.pause milliseconds)) (fun _ => .act name arguments following)
      (fun _ => rfl) fun _ => ih).next fun _ _ => rfl

end Carries

/-! ## Calls -/

section Calls

variable {levels : Nat} {name : String} {context : Context} {routine : Statement}
  {frames : List Frame}

theorem callRoutine_missing (absent : context.routines.bind (·.get? name) = none) :
    callRoutine levels name context = (.error (.blockNotFound name), context) := by
  unfold callRoutine
  simp only [Run.get_bind_apply, absent]
  rfl

theorem callRoutine_refused (found : context.routines.bind (·.get? name) = some routine) :
    callRoutine 0 name context = (.error (.depthExceeded context.depth), context) := by
  rw [callRoutine, Run.get_bind_apply]
  simp only [found]
  rfl

/-- With a level left, a routine runs one level deeper, and the level is left however it ends. -/
theorem callRoutine_entered (found : context.routines.bind (·.get? name) = some routine) :
    callRoutine (levels + 1) name context =
      match routine.eval (callRoutine levels) { context with depth := context.depth + 1 } with
      | (result, after) => (result, { after with depth := after.depth - 1 }) := by
  rw [callRoutine, Run.get_bind_apply]
  simp only [found, Run.bind_apply, Run.tryCatch_apply, Run.modify_apply]
  rcases routine.eval (callRoutine levels) { context with depth := context.depth + 1 } with
    ⟨_ | value, after⟩ <;> rfl

namespace Stage

theorem next?_missing (absent : context.routines.bind (·.get? name) = none) :
    next? ⟨.run (.call name), frames, context⟩ =
      some ⟨.answer (.error (.blockNotFound name)), frames, context⟩ := by
  rw [next?, start, absent]

theorem next?_refused (found : context.routines.bind (·.get? name) = some routine)
    (full : ¬ context.depth < maxCallDepth) : next? ⟨.run (.call name), frames, context⟩ =
      some ⟨.answer (.error (.depthExceeded context.depth)), frames, context⟩ := by
  rw [next?, start, found]
  simp only [full, if_false]

theorem next?_entered (found : context.routines.bind (·.get? name) = some routine)
    (room : context.depth < maxCallDepth) : next? ⟨.run (.call name), frames, context⟩ =
      some ⟨.run routine, .leave :: frames, { context with depth := context.depth + 1 }⟩ := by
  rw [next?, start, found]
  simp only [room, if_true]

end Stage

/-- A call leads to what it comes to, if routines do with one level less. -/
theorem Carries.call (name : String)
    (routines : ∀ fewer, levels = fewer + 1 → ∀ s : Statement,
      Carries fewer (.mk (.run s)) (s.eval (callRoutine fewer))) :
    Carries levels (.mk (.run (.call name))) (callRoutine levels name) := by
  intro frames context left
  cases found : context.routines.bind (·.get? name) with
  | none =>
    rw [callRoutine_missing found]
    exact ⟨.single (next?_missing found), rfl⟩
  | some routine =>
    -- Levels and depth add up to the limit, so the guard of the call decides as the levels do.
    cases levels with
    | zero =>
      have full : ¬ context.depth < maxCallDepth := Nat.not_lt.2 (Nat.sub_eq_zero_iff_le.1 left)
      rw [callRoutine_refused found]
      exact ⟨.single (next?_refused found full), rfl⟩
    | succ fewer =>
      have room : context.depth < maxCallDepth := by omega
      obtain ⟨leads, kept⟩ := routines fewer rfl routine (.leave :: frames)
        { context with depth := context.depth + 1 } (by simp only; omega)
      rw [callRoutine_entered found]
      generalize routine.eval (callRoutine fewer) { context with depth := context.depth + 1 } =
        result at leads kept ⊢
      refine ⟨(leads.trans (.single rfl)).next (next?_entered found room), ?_⟩
      show result.2.depth - 1 = context.depth
      rw [kept, Nat.add_sub_cancel]

end Calls

/-! ## Statements -/

namespace Statement

/-- Statements lead to what they come to if the calls inside them do. -/
theorem carries_of_calls {levels : Nat} {onCall : String → Run Value}
    (calls : ∀ name, Carries levels (.mk (.run (.call name))) (onCall name)) (s : Statement) :
    Carries levels (.mk (.run s)) (s.eval onCall) := by
  induction s using by_parts with
  | step s parts =>
    cases s with
    | literal value =>
      rw [Statement.eval]
      exact (Carries.answer (.ok value)).next fun _ _ => rfl
    | reference name =>
      rw [Statement.eval]
      exact (Carries.get fun context =>
        .answer (.ok ((context.scope.get? name).getD .null))).next fun _ _ => rfl
    | block body =>
      rw [Statement.eval]
      exact (Carries.rest parts .null).next fun _ _ => rfl
    | print line =>
      rw [Statement.eval]
      refine (Carries.ask rfl parts fun line => ?_).next fun _ _ => rfl
      exact .after (Run.emit (.line line)) _ (fun _ => rfl) fun _ => .answer (.ok .null)
    | assign name value =>
      rw [Statement.eval]
      refine (Carries.ask rfl parts fun value => ?_).next fun _ _ => rfl
      exact .after (Run.setVariable name value) _ (fun _ => rfl) fun _ => .answer (.ok value)
    | negate value =>
      rw [Statement.eval]
      exact (Carries.ask rfl parts fun value => .answer (.ok (.bool !value))).next fun _ _ => rfl
    | choose condition whenTrue whenFalse =>
      have tested : ∀ t ∈ condition.statements, Carries levels (.mk (.run t)) (t.eval onCall) :=
        fun t mem => parts t (List.mem_append_left _ mem)
      have chosen := parts whenTrue (by simp [Statement.parts])
      cases whenFalse with
      | none =>
        rw [Statement.eval]
        refine (Carries.ask rfl tested fun condition => ?_).next fun _ _ => rfl
        cases condition with
        | true => exact chosen
        | false => exact .answer (.ok .null)
      | some otherwise =>
        rw [Statement.eval]
        refine (Carries.ask rfl tested fun condition => ?_).next fun _ _ => rfl
        cases condition with
        | true => exact chosen
        | false => exact parts otherwise (by simp [Statement.parts])
    | attempt body clauses =>
      rw [Statement.eval, Run.tryCatch_eq_observe]
      refine (Carries.await (.attempt clauses) (parts body (.head _)) fun result => ?_).next
        fun _ _ => rfl
      cases result with
      | ok value => exact (Carries.answer (.ok value)).next fun _ _ => by cases clauses <;> rfl
      | error error =>
        exact .attempt (fun clause mem =>
          parts clause.2 (.tail _ (List.mem_map.2 ⟨clause, mem, rfl⟩))) error
    | throw message =>
      rw [Statement.eval]
      exact (Carries.ask rfl parts fun message => .answer (.error (.ofMessage message))).next
        fun _ _ => rfl
    | call routine =>
      rw [Statement.eval]
      exact calls routine
    | wait milliseconds =>
      rw [Statement.eval]
      refine (Carries.ask rfl parts fun milliseconds => ?_).next fun _ _ => rfl
      exact .after (Run.emit (.pause milliseconds)) _ (fun _ => rfl) fun _ => .answer (.ok .null)
    | host name action arguments =>
      rw [Statement.eval]
      exact (Carries.act parts action.steps).next fun _ _ => rfl

/-- So all statements do, by induction on the levels that are left. -/
theorem carries (levels : Nat) (s : Statement) :
    Carries levels (.mk (.run s)) (s.eval (callRoutine levels)) := by
  induction levels generalizing s with
  | zero =>
    refine s.carries_of_calls fun name => .call name fun levels same => ?_
    cases same
  | succ fewer ih =>
    refine s.carries_of_calls fun name => .call name fun levels same => ?_
    cases same
    exact ih

/-- A statement that starts now leads to what running it gives, whatever waits for it. -/
theorem leads_run (s : Statement) (frames : List Frame) (context : Context) :
    Leads ⟨.run s, frames, context⟩ ⟨.answer (s.run context).1, frames, (s.run context).2⟩ :=
  (s.carries _ frames context rfl).1

end Statement

/-! ## Blocks -/

namespace CompiledUnit

/-- The stage at which a block of a unit starts. -/
def opening (unit : CompiledUnit) (block : String) (context : Context) : Stage where
  control :=
    match unit.blocks.get? block with
    | none => .answer (.error (.blockNotFound block))
    | some statement => .run statement
  frames := []
  context := { context with routines := some unit.blocks }

/-- A block that starts now leads to what `invoke` gives. That puts back the routines of the
context, which were the unit's meanwhile. -/
theorem leads_invoke (unit : CompiledUnit) (block : String) (context : Context) :
    ∃ after, Leads (unit.opening block context)
        ⟨.answer (unit.invoke block context).1, [], after⟩ ∧
      (unit.invoke block context).2 = { after with routines := context.routines } := by
  rw [opening, invoke]
  cases unit.blocks.get? block with
  | none => exact ⟨{ context with routines := some unit.blocks }, .refl _, rfl⟩
  | some statement =>
    exact ⟨_, statement.leads_run [] { context with routines := some unit.blocks }, rfl⟩

end CompiledUnit

end ScriptHost
