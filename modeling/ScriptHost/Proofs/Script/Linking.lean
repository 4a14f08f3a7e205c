import ScriptHost.Proofs.Script.Relating
import ScriptHost.Proofs.Script.Routines
import ScriptHost.Script.Engine
/-!
# Running a unit inside a larger one

A run sees the routines of its unit only by calling them. So routines that call only each other
do the same in every unit that has them, whatever else it has.

`Alike small large m m'` relates two computations that do the same, one in a context with the
routines `small`, the other in the same context with the routines `large`. It goes along with all
that statements do.

**Results.**
* `Statement.eval_alike`: statements are alike if the calls inside them are.
* `callRoutine_alike`: calls of routines that the larger table has too are alike.
* `CompiledUnit.invoke_eq`: a block does the same in every unit that has all blocks of its own unit.
-/
namespace ScriptHost

/-! ## Runs step by step -/

namespace Run

variable {α β : Type}

theorem bind_apply (m : Run α) (f : α → Run β) (context : Context) :
    (m >>= f) context = match m context with
      | (.ok a, after) => f a after
      | (.error e, after) => (.error e, after) := by
  simp only [Bind.bind, ExceptT.bind, ExceptT.mk, StateT.bind]
  rcases m context with ⟨_ | a, after⟩ <;> rfl

theorem tryCatch_apply (m : Run α) (f : ScriptError → Run α) (context : Context) :
    (tryCatch m f : Run α) context = match m context with
      | (.ok a, after) => (.ok a, after)
      | (.error e, after) => f e after := by
  simp only [tryCatch, tryCatchThe, MonadExceptOf.tryCatch, ExceptT.tryCatch, ExceptT.mk, Bind.bind,
    StateT.bind]
  rcases m context with ⟨_ | a, after⟩ <;> rfl

theorem adapt_apply (f : ScriptError → ScriptError) (m : Run α) (context : Context) :
    (ExceptT.adapt f m : Run α) context = ((m context).1.mapError f, (m context).2) := rfl

/-- A computation inside a call, which is counted while it runs. -/
def inside (m : Run Value) : Run Value := do
  modify fun context => { context with depth := context.depth + 1 }
  let leave : Run Unit := modify fun context => { context with depth := context.depth - 1 }
  let value ← tryCatch m fun error => do
    leave
    throwThe ScriptError error
  leave
  return value

theorem observe_apply (m : Run Value) (context : Context) :
    (perform.observe m) context = (.ok (m context).1, (m context).2) := rfl

end Run

/-! ## Computations that are alike -/

def Context.under (context : Context) (routines : Table Statement) : Context :=
  { context with routines := some routines }

/-- Two computations do the same, one with the routines `small`, the other with the routines
`large`. -/
def Alike (small large : Table Statement) {α : Type} (m m' : Run α) : Prop :=
  ∀ context : Context, context.routines = some small →
    (m context).2.routines = some small ∧ m' (context.under large) =
    ((m context).1, (m context).2.under large)

namespace Alike

variable {small large : Table Statement} {α β : Type} {m m' : Run α}

theorem pure (a : α) : Alike small large (pure a) (pure a) := fun _ h => ⟨h, rfl⟩

theorem throw (e : ScriptError) : Alike small large (throwThe ScriptError e : Run α)
    (throwThe ScriptError e) :=
  fun _ h => ⟨h, rfl⟩

theorem lift (result : Except ScriptError α) : Alike small large (liftM result : Run α)
    (liftM result) := by
  intro context h
  cases result <;> exact ⟨h, rfl⟩

theorem bind {f f' : α → Run β} (h : Alike small large m m')
    (k : ∀ a, Alike small large (f a) (f' a)) : Alike small large (m >>= f) (m' >>= f') := by
  intro context same
  obtain ⟨kept, eq⟩ := h context same
  rw [Run.bind_apply, Run.bind_apply, eq]
  generalize m context = result at kept ⊢
  obtain ⟨e | a, after⟩ := result
  · exact ⟨kept, rfl⟩
  · exact k a after kept

/-- What reads the context may look at everything but the routines. -/
theorem get {f f' : Context → Run β}
    (k : ∀ context, context.routines = some small → Alike small large (f context)
      (f' (context.under large))) :
    Alike small large (MonadState.get >>= f) (MonadState.get >>= f') := by
  intro context same
  exact k context same context same

theorem modify {f : Context → Context} (keeps : ∀ context, (f context).routines = context.routines)
    (commutes : ∀ context, f (context.under large) = (f context).under large) :
    Alike small large (modify f : Run Unit) (modify f) := by
  intro context same
  refine ⟨(keeps context).trans same, ?_⟩
  show (_, f (context.under large)) = _
  rw [commutes]
  rfl

theorem modifyDepth (f : Nat → Nat) :
    Alike small large (MonadState.modifyGet fun context =>
      ((), { context with depth := f context.depth }) : Run Unit)
      (MonadState.modifyGet fun context => ((), { context with depth := f context.depth })) :=
  fun _ same => ⟨same, rfl⟩

theorem tryCatch {f f' : ScriptError → Run α} (h : Alike small large m m')
    (k : ∀ e, Alike small large (f e) (f' e)) : Alike small large (tryCatch m f)
      (tryCatch m' f') := by
  intro context same
  obtain ⟨kept, eq⟩ := h context same
  rw [Run.tryCatch_apply, Run.tryCatch_apply, eq]
  generalize m context = result at kept ⊢
  obtain ⟨e | a, after⟩ := result
  · exact k e after kept
  · exact ⟨kept, rfl⟩

theorem adapt (f : ScriptError → ScriptError) (h : Alike small large m m') :
    Alike small large (ExceptT.adapt f m) (ExceptT.adapt f m') := by
  intro context same
  obtain ⟨kept, eq⟩ := h context same
  rw [Run.adapt_apply, Run.adapt_apply, eq]
  exact ⟨kept, rfl⟩

theorem observe {m m' : Run Value} (h : Alike small large m m') :
    Alike small large (Run.perform.observe m) (Run.perform.observe m') := by
  intro context same
  obtain ⟨kept, eq⟩ := h context same
  rw [Run.observe_apply, Run.observe_apply, eq]
  exact ⟨kept, rfl⟩

theorem emit (output : Output) : Alike small large (Run.emit output) (Run.emit output) :=
  modify (fun _ => rfl) fun _ => rfl

theorem setVariable (name : String) (value : Value) :
    Alike small large (Run.setVariable name value) (Run.setVariable name value) :=
  modify (fun _ => rfl) fun _ => rfl

theorem removeVariable (name : String) :
    Alike small large (Run.removeVariable name) (Run.removeVariable name) :=
  fun _ same => ⟨same, rfl⟩

/-- A host action does the same if its arguments do: it asks for nothing else that tells the
units apart. -/
theorem perform {argument argument' : Nat → Run Value}
    (h : ∀ index, Alike small large (argument index) (argument' index)) (steps : HostSteps) :
    Alike small large (Run.perform argument steps) (Run.perform argument' steps) := by
  induction steps with
  | finish result => exact fun _ same => ⟨same, rfl⟩
  | argument index next ih =>
    rw [Run.perform, Run.perform]
    exact (observe (h index)).bind ih
  | event next ih | getVariable name next ih =>
    rw [Run.perform, Run.perform]
    exact get fun context _ => ih _
  | setVariable name value next ih =>
    rw [Run.perform, Run.perform]
    exact (setVariable name value).bind fun _ => ih
  | removeVariable name next ih =>
    rw [Run.perform, Run.perform]
    exact (removeVariable name).bind ih
  | print line next ih | pause milliseconds next ih =>
    rw [Run.perform, Run.perform]
    exact (emit _).bind fun _ => ih

/-- What runs inside a call is counted as one level more, in both. -/
theorem inside {m m' : Run Value} (body : Alike small large m m') :
    Alike small large m.inside m'.inside := by
  refine (Alike.modifyDepth (· + 1)).bind fun _ =>
    (body.tryCatch fun error => ?_).bind fun value => ?_
  · exact (Alike.modifyDepth (· - 1)).bind fun _ => .throw error
  · exact (Alike.modifyDepth (· - 1)).bind fun _ => .pure value

end Alike

/-! ## Statements -/

section Statements

variable {small large : Table Statement}

/-- Doing the same goes along with all that statements do, whatever errors come about. -/
theorem logical_alike : Logical (fun _ => True) fun _ => Alike small large where
  mismatch _ _ := trivial
  thrown _ := trivial
  pure := .pure
  throw {e} _ _ := .throw e
  bind := .bind
  tryCatch h k := h.tryCatch fun e => k e trivial
  reference _ := .get fun _ _ => .pure _
  setVariable := .setVariable
  emit := .emit
  action _ steps _ _ h := .adapt _ (.perform h steps)

/-- Statements are alike if the calls inside them are. -/
theorem Statement.eval_alike {onCall onCall' : String → Run Value} {s : Statement}
    (h : ∀ routine ∈ s.calls, Alike small large (onCall routine) (onCall' routine)) :
    Alike small large (s.eval onCall) (s.eval onCall') :=
  eval_related logical_alike h

end Statements

/-! ## Units -/

/-- Every routine of a table is in another. -/
def Embeds (small large : Table Statement) : Prop := ∀ name s, small.get? name = some s →
    large.get? name = some s

theorem callRoutine_alike {small large : Table Statement} (resolved : Grammar.Resolved small)
    (embeds : Embeds small large) (levels : Nat) : ∀ name, small.contains name →
      Alike small large (callRoutine levels name) (callRoutine levels name) := by
  induction levels with
  | zero =>
    intro name known
    obtain ⟨s, found⟩ := Option.isSome_iff_exists.1 known
    rw [callRoutine]
    refine .get fun context same => ?_
    simp only [same, Context.under, Option.bind_some, found, embeds name s found]
    exact .throw _
  | succ levels ih =>
    intro name known
    obtain ⟨s, found⟩ := Option.isSome_iff_exists.1 known
    have body : Alike small large (s.eval (callRoutine levels)) (s.eval (callRoutine levels)) :=
      Statement.eval_alike fun routine called => ih routine (resolved name s found routine called)
    rw [callRoutine]
    refine .get fun context same => ?_
    simp only [same, Context.under, Option.bind_some, found, embeds name s found]
    exact body.inside

/-- A block does the same in every unit that has all blocks of its own unit. -/
theorem CompiledUnit.invoke_eq {own joint : CompiledUnit} (resolved : Grammar.Resolved own.blocks)
    (embeds : Embeds own.blocks joint.blocks) {block : String} (known : own.contains block)
    (context : Context) : joint.invoke block context = own.invoke block context := by
  obtain ⟨s, found⟩ := Option.isSome_iff_exists.1 known
  have alike : Alike own.blocks joint.blocks (s.eval (callRoutine (maxCallDepth - context.depth)))
      (s.eval (callRoutine (maxCallDepth - context.depth))) :=
    Statement.eval_alike fun routine called =>
      callRoutine_alike resolved embeds _ routine (resolved block s found routine called)
  obtain ⟨-, eq⟩ := alike { context with routines := some own.blocks } rfl
  simp only [Context.under] at eq
  simp only [CompiledUnit.invoke, found, embeds block s found, Statement.run, eq]

end ScriptHost
