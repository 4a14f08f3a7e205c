import ScriptHost.Proofs.Script.Compiling
import ScriptHost.Proofs.Script.Linking
/-!
# Calls find their routines

A run looks a routine up in its context at the moment when it is called, wherever the call
stands. The compiler has looked at all calls before.

`callIn blocks missing` are calls that look routines up in a fixed table, and do whatever
`missing` says where there is none. A run that is the same for every `missing` has no use for it:
a call that finds nothing could leave any trace that it likes.

**Results.**
* `Engine.resolved_of_compile`: in a compiled unit every call has its routine.
* `callRoutine_callIn`: in a context with a resolved table, calls are calls into that table.
* `CompiledUnit.invoke_finds`: a block of a resolved unit never comes to a call without routine, and
  does not fail for want of one.
-/
namespace ScriptHost

open Grammar

/-! ## Resolved units -/

/-- A source is compiled to routines that have all that they call. -/
theorem Grammar.resolved_of_routines {actions : Table HostAction} {tokens : List Token}
    {blocks : Table Statement} (made : routines actions tokens = .ok blocks) : Resolved blocks := by
  by_cases starts : (kinds tokens).head? = some (.word "def")
  · rw [routines_of_def starts] at made
    obtain ⟨defined, -, made⟩ := bind_eq_ok.1 made
    exact (checked_ok_iff.1 made).2
  · rw [routines_of_bare starts] at made
    obtain ⟨list, -, made⟩ := bind_eq_ok.1 made
    exact (checked_ok_iff.1 made).2

/-- In a compiled unit every call has its routine. -/
theorem Engine.resolved_of_compile {engine : Engine} {source : String} {namespaces : List String}
    {unit : CompiledUnit} (made : engine.compile source namespaces = .ok unit) :
    Resolved unit.blocks := by
  obtain ⟨-, -, actions, tokens, -, -, made⟩ := compile_ok_iff.1 made
  exact resolved_of_routines made

/-! ## Calls into a table -/

/-- Calls a routine of a table, with this many levels left for it and the calls inside it. A
call that finds no routine does what `missing` says. -/
def callIn (blocks : Table Statement) (missing : String → Run Value) (levels : Nat)
    (name : String) : Run Value := do
  let context ← get
  match blocks.get? name with
  | none => missing name
  | some routine =>
    match levels with
    | 0 => throwThe ScriptError (.depthExceeded context.depth)
    | levels + 1 => do
      modify fun context => { context with depth := context.depth + 1 }
      let leave : Run Unit := modify fun context => { context with depth := context.depth - 1 }
      let value ← tryCatch (routine.eval (callIn blocks missing levels)) fun error => do
        leave
        throwThe ScriptError error
      leave
      return value

/-- Runs a block of the unit with calls into the unit's own table. -/
def CompiledUnit.invokeIn (unit : CompiledUnit) (missing : String → Run Value) (block : String)
    (context : Context) : Except ScriptError Value × Context :=
  match unit.blocks.get? block with
  | none => missing block context
  | some statement =>
    let (result, after) :=
      statement.eval (callIn unit.blocks missing (maxCallDepth - context.depth))
        { context with routines := some unit.blocks }
    (result, { after with routines := context.routines })

/-- In a context with a resolved table, calls are calls into that table, and what would become of
a call without routine does not matter. -/
theorem callRoutine_callIn {blocks : Table Statement} (resolved : Resolved blocks)
    (missing : String → Run Value) (levels : Nat) : ∀ name, blocks.contains name →
      Alike blocks blocks (callRoutine levels name) (callIn blocks missing levels name) := by
  induction levels with
  | zero =>
    intro name known
    obtain ⟨s, found⟩ := Option.isSome_iff_exists.1 known
    rw [callRoutine, callIn]
    refine .get fun context same => ?_
    simp only [same, Option.bind_some, found]
    exact .throw _
  | succ levels ih =>
    intro name known
    obtain ⟨s, found⟩ := Option.isSome_iff_exists.1 known
    have body : Alike blocks blocks (s.eval (callRoutine levels))
        (s.eval (callIn blocks missing levels)) :=
      Statement.eval_alike fun routine called => ih routine (resolved name s found routine called)
    rw [callRoutine, callIn]
    refine .get fun context same => ?_
    simp only [same, Option.bind_some, found]
    exact body.inside

/-! ## Failures -/

/-- An error that is not the want of a routine. -/
def ScriptError.NotMissing (error : ScriptError) : Prop := ∀ name, error ≠ .blockNotFound name

theorem ScriptError.notMissing_ofMessage (text : String) :
    (ScriptError.ofMessage text).NotMissing := by
  unfold ofMessage
  split
  · split <;> exact fun _ => nofun
  · exact fun _ => nofun

namespace Run

variable {α β : Type}

/-- A computation that does not fail for want of a routine. -/
def Provided (m : Run α) : Prop := ∀ context name, (m context).1 ≠ .error (.blockNotFound name)

namespace Provided

variable {m : Run α}

theorem pure (a : α) : Provided (pure a) := fun _ _ => nofun

theorem throw {e : ScriptError} (other : e.NotMissing) :
    Provided (throwThe ScriptError e : Run α) := fun _ name eq => other name (Except.error.inj eq)

theorem get : Provided (MonadState.get : Run Context) := fun _ _ => nofun

theorem modify (f : Context → Context) : Provided (modify f : Run Unit) := fun _ _ => nofun

theorem bind {f : α → Run β} (h : Provided m) (k : ∀ a, Provided (f a)) : Provided (m >>= f) := by
  intro context name
  rw [bind_apply]
  have first := h context name
  generalize m context = result at first ⊢
  obtain ⟨e | a, after⟩ := result
  · exact fun eq => first (congrArg _ (Except.error.inj eq))
  · exact k a after name

theorem tryCatch {f : ScriptError → Run α} (h : Provided m)
    (k : ∀ e, e.NotMissing → Provided (f e)) : Provided (tryCatch m f) := by
  intro context name
  rw [tryCatch_apply]
  have first := h context
  generalize m context = result at first ⊢
  obtain ⟨e | a, after⟩ := result
  · exact k e (fun name eq => first name (congrArg _ eq)) after name
  · exact nofun

/-- What an action fails with is its own failure, even if one of its arguments wants a routine. -/
theorem action (action : String) (m : Run α) :
    Provided (ExceptT.adapt (.fromAction action) m) := by
  intro context name
  rw [adapt_apply]
  generalize m context = result
  obtain ⟨e | a, after⟩ := result
  · cases e <;> exact nofun
  · exact nofun

end Provided
end Run

/-- What wants no routine does so whatever is put together from it. -/
theorem logical_provided : Logical ScriptError.NotMissing fun _ m _ => Run.Provided m where
  mismatch _ _ _ := nofun
  thrown := ScriptError.notMissing_ofMessage
  pure := .pure
  throw h _ := .throw h
  bind h k := h.bind k
  tryCatch h k := h.tryCatch k
  reference _ := Run.Provided.get.bind fun _ => .pure _
  setVariable _ _ := .modify _
  emit _ := .modify _
  action name _ _ _ _ := .action name _

theorem Statement.eval_provided {onCall : String → Run Value}
    (called : ∀ routine, Run.Provided (onCall routine)) (s : Statement) :
    Run.Provided (s.eval onCall) :=
  @eval_related _ _ onCall onCall logical_provided s fun routine _ => called routine

/-- Calls into a table fail for want of a routine only where `missing` does. -/
theorem callIn_provided {blocks : Table Statement} {missing : String → Run Value}
    (fails : ∀ name, Run.Provided (missing name)) (levels : Nat) :
    ∀ name, Run.Provided (callIn blocks missing levels name) := by
  induction levels with
  | zero =>
    intro name
    rw [callIn]
    refine Run.Provided.get.bind fun context => ?_
    split
    · exact fails name
    · exact .throw fun _ => nofun
  | succ levels ih =>
    intro name
    rw [callIn]
    refine Run.Provided.get.bind fun context => ?_
    split
    · exact fails name
    · rename_i routine found
      refine (Run.Provided.modify _).bind fun _ =>
        ((routine.eval_provided ih).tryCatch fun error other => ?_).bind fun value => ?_
      · exact (Run.Provided.modify _).bind fun _ => .throw other
      · exact (Run.Provided.modify _).bind fun _ => .pure value

/-! ## Units -/

/-- A block of a resolved unit never comes to a call without routine, whatever that would do, and
does not fail for want of one. -/
theorem CompiledUnit.invoke_finds {unit : CompiledUnit} (resolved : Resolved unit.blocks)
    {block : String} (known : unit.contains block) (context : Context) :
    (∀ missing, unit.invoke block context = unit.invokeIn missing block context) ∧
      ∀ name, (unit.invoke block context).1 ≠ .error (.blockNotFound name) := by
  obtain ⟨s, found⟩ := Option.isSome_iff_exists.1 known
  have same (missing : String → Run Value) :
      unit.invoke block context = unit.invokeIn missing block context := by
    have alike : Alike unit.blocks unit.blocks
        (s.eval (callRoutine (maxCallDepth - context.depth)))
        (s.eval (callIn unit.blocks missing (maxCallDepth - context.depth))) :=
      Statement.eval_alike fun routine called =>
        callRoutine_callIn resolved missing _ routine (resolved block s found routine called)
    obtain ⟨kept, eq⟩ := alike { context with routines := some unit.blocks } rfl
    simp only [Context.under] at eq
    simp only [invoke, invokeIn, found, Statement.run, eq]
  refine ⟨same, fun name => ?_⟩
  let missing (name : String) : Run Value := throwThe ScriptError (.thrown "missing" name)
  have provided := s.eval_provided (@callIn_provided unit.blocks missing
    (fun _ => .throw (by simp [ScriptError.NotMissing])) (maxCallDepth - context.depth))
  rw [same missing]
  simp only [invokeIn, found]
  exact provided _ name

end ScriptHost
