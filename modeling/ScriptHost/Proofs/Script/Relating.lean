import ScriptHost.Proofs.Script.Parts
import ScriptHost.Proofs.Script.Scanning
import ScriptHost.Script.Evaluation
/-!
# Relations that statements keep

What a statement does is put together from a few computations: it returns and throws, does one
thing after another, catches errors, reads and sets variables, puts something out, and has host
actions performed. A relation of computations that goes along with each of these holds of what two
runs of a statement come to if it holds of the calls inside it.

**Errors.** A relation may depend on which errors come about. One that is `Logical allowed` goes
along with errors that are `allowed`; those that statements throw by themselves have to be: that a
value is of the wrong type, and what a `throw` says.

**Results.**
* `Converts`: a value that cannot be converted is of the wrong type.
* `Statement.eval_related`: what two runs of a statement come to is related if the calls inside it
  are.
-/
namespace ScriptHost

/-! ## Conversions -/

theorem int64_mismatch {value : Value} {error : ScriptError}
    (failed : (fromValue value : Except ScriptError Int64) = .error error) :
    error = .typeMismatch "integer" value := by
  simp only [fromValue] at failed
  split at failed
  · cases failed
  · split at failed <;> cases failed
    rfl
  · cases failed
    rfl

theorem uint64_mismatch {value : Value} {error : ScriptError}
    (failed : (fromValue value : Except ScriptError UInt64) = .error error) :
    ∃ expected, error = .typeMismatch expected value := by
  change ((fromValue value : Except ScriptError Int64) >>= fun n => _) = _ at failed
  cases read : (fromValue value : Except ScriptError Int64) with
  | error problem =>
    rw [read] at failed
    cases failed
    exact ⟨_, int64_mismatch read⟩
  | ok n =>
    rw [read, ok_bind] at failed
    split at failed <;> cases failed
    exact ⟨_, rfl⟩

/-- A value that cannot be converted to a type is of the wrong type. -/
def Converts (α : Type) [FromValue α] : Prop :=
  ∀ (value : Value) (error : ScriptError), (fromValue value : Except ScriptError α) = .error error →
    ∃ expected, error = .typeMismatch expected value

theorem converts_value : Converts Value := fun _ _ => nofun

theorem converts_string : Converts String := fun _ _ => nofun

theorem converts_bool : Converts Bool := fun _ _ => nofun

theorem converts_uint64 : Converts UInt64 := fun _ _ => uint64_mismatch

/-! ## Logical relations -/

/-- A relation of computations goes along with all that statements do but calls, as long as errors
are `allowed`. -/
structure Logical (allowed : ScriptError → Prop) (relation : (α : Type) → Run α → Run α → Prop) :
    Prop where
  mismatch : ∀ expected value, allowed (.typeMismatch expected value)
  thrown : ∀ text, allowed (.ofMessage text)
  pure {α : Type} (a : α) : relation α (Pure.pure a) (Pure.pure a)
  throw {e : ScriptError} (h : allowed e) {α : Type} :
    relation α (throwThe ScriptError e) (throwThe ScriptError e)
  bind {α β : Type} {m m' : Run α} {f f' : α → Run β} (h : relation α m m')
    (k : ∀ a, relation β (f a) (f' a)) : relation β (m >>= f) (m' >>= f')
  tryCatch {m m' : Run Value} {f f' : ScriptError → Run Value} (h : relation Value m m')
    (k : ∀ e, allowed e → relation Value (f e) (f' e)) :
    relation Value (tryCatch m f) (tryCatch m' f')
  reference (name : String) :
    relation Value (do return ((← get).scope.get? name).getD .null)
      (do return ((← get).scope.get? name).getD .null)
  setVariable (name : String) (value : Value) :
    relation Unit (Run.setVariable name value) (Run.setVariable name value)
  emit (output : Output) : relation Unit (Run.emit output) (Run.emit output)
  action (name : String) (steps : HostSteps) {argument argument' : Nat → Run Value}
    (h : ∀ index, relation Value (argument index) (argument' index)) :
    relation Value (ExceptT.adapt (.fromAction name) (Run.perform argument steps))
      (ExceptT.adapt (.fromAction name) (Run.perform argument' steps))

section

variable {allowed : ScriptError → Prop} {relation : (α : Type) → Run α → Run α → Prop}
  {onCall onCall' : String → Run Value}

theorem Logical.param {α : Type} [FromValue α] (logical : Logical allowed relation)
    (converts : Converts α) {param : Param Statement α}
    (h : ∀ s ∈ param.statements, relation Value (s.eval onCall) (s.eval onCall')) :
    relation α (param.eval fun s _ => s.eval onCall) (param.eval fun s _ => s.eval onCall') := by
  cases param with
  | constant value => exact logical.pure value
  | deferred s =>
    refine logical.bind (h s (.head _)) fun value => ?_
    have converted := converts value
    generalize (fromValue value : Except ScriptError α) = result at converted ⊢
    cases result with
    | error e =>
      obtain ⟨expected, rfl⟩ := converted e rfl
      exact logical.throw (logical.mismatch expected value)
    | ok a => exact logical.pure a

namespace Statement

theorem evalAll_related (logical : Logical allowed relation) {body : List Statement}
    (h : ∀ s ∈ body, relation Value (s.eval onCall) (s.eval onCall')) (last : Value) :
    relation Value (evalAll onCall last body) (evalAll onCall' last body) := by
  induction body generalizing last with
  | nil =>
    rw [evalAll, evalAll]
    exact logical.pure last
  | cons s rest ih =>
    rw [evalAll, evalAll]
    exact logical.bind (h s (.head _)) fun value => ih (fun t mem => h t (.tail _ mem)) value

theorem handle_related (logical : Logical allowed relation) {clauses : List (String × Statement)}
    (h : ∀ clause ∈ clauses, relation Value (clause.2.eval onCall) (clause.2.eval onCall'))
    {error : ScriptError} (isAllowed : allowed error) :
    relation Value (handle onCall error clauses) (handle onCall' error clauses) := by
  induction clauses with
  | nil =>
    rw [handle, handle]
    exact logical.throw isAllowed
  | cons clause rest ih =>
    obtain ⟨pattern, body⟩ := clause
    rw [handle, handle]
    split
    · exact logical.bind (logical.setVariable _ _) fun _ => h _ (.head _)
    · exact ih fun clause mem => h clause (.tail _ mem)

/-- What two runs of a statement come to is related if the calls inside it are. -/
theorem eval_related (logical : Logical allowed relation) {s : Statement}
    (h : ∀ routine ∈ s.calls, relation Value (onCall routine) (onCall' routine)) :
    relation Value (s.eval onCall) (s.eval onCall') := by
  induction s using by_parts with
  | step s ih =>
    have parts : ∀ t ∈ s.parts, relation Value (t.eval onCall) (t.eval onCall') := by
      intro t mem
      refine ih t mem fun routine called => h routine ?_
      rw [calls_eq]
      exact List.mem_append_right _ (List.mem_flatMap.2 ⟨t, mem, called⟩)
    cases s with
    | literal value =>
      rw [eval, eval]
      exact logical.pure value
    | reference name =>
      rw [eval, eval]
      exact logical.reference name
    | block body =>
      rw [eval, eval]
      exact evalAll_related logical parts _
    | print line =>
      rw [eval, eval]
      exact logical.bind (logical.param converts_string parts) fun line =>
        logical.bind (logical.emit _) fun _ => logical.pure _
    | assign name value =>
      rw [eval, eval]
      exact logical.bind (logical.param converts_value parts) fun value =>
        logical.bind (logical.setVariable name value) fun _ => logical.pure _
    | negate value =>
      rw [eval, eval]
      exact logical.bind (logical.param converts_bool parts) fun value => logical.pure _
    | choose condition whenTrue whenFalse =>
      have tested : ∀ t ∈ condition.statements,
          relation Value (t.eval onCall) (t.eval onCall') :=
        fun t mem => parts t (List.mem_append_left _ mem)
      have chosen := parts whenTrue (by simp [Statement.parts])
      cases whenFalse with
      | none =>
        rw [eval, eval]
        refine logical.bind (logical.param converts_bool tested) fun condition => ?_
        split
        · exact chosen
        · exact logical.pure _
      | some otherwise =>
        rw [eval, eval]
        refine logical.bind (logical.param converts_bool tested) fun condition => ?_
        split
        · exact chosen
        · exact parts otherwise (by simp [Statement.parts])
    | attempt body clauses =>
      rw [eval, eval]
      refine logical.tryCatch (parts body (.head _)) fun error isAllowed =>
        handle_related logical (fun clause mem => ?_) isAllowed
      exact parts clause.2 (.tail _ (List.mem_map.2 ⟨clause, mem, rfl⟩))
    | throw message =>
      rw [eval, eval]
      exact logical.bind (logical.param converts_string parts) fun message =>
        logical.throw (logical.thrown message)
    | call routine =>
      rw [eval, eval]
      exact h routine (by simp [calls])
    | wait milliseconds =>
      rw [eval, eval]
      exact logical.bind (logical.param converts_uint64 parts) fun milliseconds =>
        logical.bind (logical.emit _) fun _ => logical.pure _
    | host name action arguments =>
      rw [eval, eval]
      refine logical.action name action.steps fun index => ?_
      split
      · rename_i inside
        refine logical.param converts_value fun t mem => parts t ?_
        exact List.mem_flatMap.2 ⟨_, List.getElem_mem inside, mem⟩
      · exact logical.pure _

end Statement

end

end ScriptHost
