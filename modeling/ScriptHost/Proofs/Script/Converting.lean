import Mathlib.Data.List.Basic
import ScriptHost.Proofs.Script.Linking
/-!
# Converting literals

A literal that a parameter has a type for is converted when it is read, not when it is run.
`Statement.compiled` is a statement with all such literals converted; a statement in which none
is left is `Fixed`.

**Results.**
* `Statement.compiled_eq_self`: converting leaves a fixed statement as it is.
* `Statement.calls_compiled`: converting keeps the calls of a statement.
* `Param.eval_narrow`: it does not matter when a literal is converted.
-/
namespace ScriptHost

/-- At the type of all values there is nothing to convert. -/
theorem Param.narrow_value (p : Param Statement Value) : p.narrow = p := by
  cases p <;> rfl

namespace Statement

mutual

/-- The statement with every literal converted that can be. -/
def compiled : Statement → Statement
  | literal value => literal value
  | reference name => reference name
  | block body => block (compiledAll body)
  | print (.constant line) => print (.constant line)
  | print (.deferred s) => print s.compiled.toParam.narrow
  | assign name (.constant value) => assign name (.constant value)
  | assign name (.deferred s) => assign name s.compiled.toParam
  | negate (.constant b) => negate (.constant b)
  | negate (.deferred s) => negate s.compiled.toParam.narrow
  | choose condition whenTrue whenFalse =>
    let tested := match condition with
      | .constant b => .constant b
      | .deferred s => s.compiled.toParam.narrow
    let otherwise := match whenFalse with
      | none => none
      | some s => some s.compiled
    choose tested whenTrue.compiled otherwise
  | attempt body clauses => attempt body.compiled (compiledClauses clauses)
  | throw (.constant message) => throw (.constant message)
  | throw (.deferred s) => throw s.compiled.toParam.narrow
  | call routine => call routine
  | wait (.constant n) => wait (.constant n)
  | wait (.deferred s) => wait s.compiled.toParam.narrow
  | host name action arguments => host name action (compiledParams arguments)

def compiledAll : List Statement → List Statement
  | [] => []
  | s :: rest => s.compiled :: compiledAll rest

def compiledClauses : List (String × Statement) → List (String × Statement)
  | [] => []
  | (pattern, s) :: rest => (pattern, s.compiled) :: compiledClauses rest

def compiledParams : List (Param Statement Value) → List (Param Statement Value)
  | [] => []
  | .constant value :: rest => .constant value :: compiledParams rest
  | .deferred s :: rest => s.compiled.toParam :: compiledParams rest

end

end Statement

def Param.compiled {α : Type} [FromValue α] : Param Statement α → Param Statement α
  | constant a => constant a
  | deferred s => s.compiled.toParam.narrow

namespace Statement

theorem compiledAll_eq (body : List Statement) : compiledAll body = body.map compiled := by
  induction body with
  | nil => rfl
  | cons s rest ih => exact congrArg (s.compiled :: ·) ih

theorem compiledClauses_eq (clauses : List (String × Statement)) :
    compiledClauses clauses = clauses.map fun c => (c.1, c.2.compiled) := by
  induction clauses with
  | nil => rfl
  | cons clause rest ih => exact congrArg ((clause.1, clause.2.compiled) :: ·) ih

theorem compiledParams_eq (arguments : List (Param Statement Value)) :
    compiledParams arguments = arguments.map Param.compiled := by
  induction arguments with
  | nil => rfl
  | cons p rest ih =>
    rw [List.map_cons, ← ih]
    cases p with
    | constant value => rfl
    | deferred s =>
      rw [Param.compiled, Param.narrow_value]
      rfl

section Equations

variable {name : String} {action : HostAction} {body whenTrue : Statement}

@[simp] theorem compiled_literal (value : Value) : (literal value).compiled = literal value :=
  rfl

@[simp] theorem compiled_reference : (reference name).compiled = reference name :=
  rfl

@[simp] theorem compiled_call : (call name).compiled = call name :=
  rfl

@[simp] theorem compiled_block (body : List Statement) :
    (block body).compiled = block (body.map compiled) :=
  congrArg block (compiledAll_eq body)

@[simp] theorem compiled_print (p : Param Statement String) :
    (print p).compiled = print p.compiled := by
  cases p <;> rfl

@[simp] theorem compiled_throw (p : Param Statement String) :
    (throw p).compiled = throw p.compiled := by
  cases p <;> rfl

@[simp] theorem compiled_negate (p : Param Statement Bool) :
    (negate p).compiled = negate p.compiled := by
  cases p <;> rfl

@[simp] theorem compiled_wait (p : Param Statement UInt64) :
    (wait p).compiled = wait p.compiled := by
  cases p <;> rfl

@[simp] theorem compiled_assign (p : Param Statement Value) :
    (assign name p).compiled = assign name p.compiled := by
  cases p with
  | constant value => rfl
  | deferred s =>
    rw [Param.compiled, Param.narrow_value]
    rfl

@[simp] theorem compiled_choose (p : Param Statement Bool) (whenFalse : Option Statement) :
    (choose p whenTrue whenFalse).compiled =
      choose p.compiled whenTrue.compiled (whenFalse.map compiled) := by
  cases p <;> cases whenFalse <;> rfl

@[simp] theorem compiled_attempt (clauses : List (String × Statement)) :
    (attempt body clauses).compiled =
      attempt body.compiled (clauses.map fun c => (c.1, c.2.compiled)) :=
  congrArg (attempt body.compiled) (compiledClauses_eq clauses)

@[simp] theorem compiled_host (arguments : List (Param Statement Value)) :
    (host name action arguments).compiled =
      host name action (arguments.map Param.compiled) :=
  congrArg (host name action) (compiledParams_eq arguments)

end Equations

/-! ## Calls -/

/-- Only literals are converted, and those call nothing. -/
theorem calls_narrow {α : Type} [FromValue α] (s : Statement) :
    (s.toParam.narrow : Param Statement α).statements.flatMap calls = s.calls := by
  cases s with
  | literal value =>
    rw [toParam, Param.narrow]
    split <;> simp [Param.statements, calls]
  | _ => simp [toParam, Param.narrow, Param.statements]

theorem calls_param {α : Type} [FromValue α] {p : Param Statement α}
    (parts : ∀ t ∈ p.statements, t.compiled.calls = t.calls) :
    p.compiled.statements.flatMap calls = p.statements.flatMap calls := by
  cases p with
  | constant a => rfl
  | deferred s =>
    rw [Param.compiled, calls_narrow, parts s (.head _)]
    simp [Param.statements]

theorem calls_compiled (s : Statement) : s.compiled.calls = s.calls := by
  induction s using by_parts with
  | step s ih =>
    rw [calls_eq, calls_eq]
    cases s with
    | literal | reference | call => simp [parts, callee?]
    | block body =>
      have same : ∀ t ∈ body, t.compiled.calls = t.calls := ih
      rw [compiled_block]
      simp only [parts, callee?, List.flatMap_map]
      rw [List.flatMap_congr same]
    | print p =>
      rw [compiled_print]
      exact calls_param ih
    | throw p =>
      rw [compiled_throw]
      exact calls_param ih
    | negate p =>
      rw [compiled_negate]
      exact calls_param ih
    | wait p =>
      rw [compiled_wait]
      exact calls_param ih
    | assign name p =>
      rw [compiled_assign]
      exact calls_param ih
    | choose condition whenTrue whenFalse =>
      have tested := calls_param fun t mem => ih t (List.mem_append_left _ mem)
      have first := ih whenTrue (by simp [parts])
      rw [compiled_choose]
      simp only [parts, callee?, List.flatMap_append, List.flatMap_cons, tested, first]
      cases whenFalse with
      | none => rfl
      | some other => simp [ih other (by simp [parts])]
    | attempt body clauses =>
      have tried := ih body (.head _)
      rw [compiled_attempt]
      simp only [parts, callee?, List.flatMap_cons, tried, List.flatMap_map]
      rw [List.flatMap_congr fun c mem => ih c.2 (.tail _ (List.mem_map_of_mem mem))]
    | host name action arguments =>
      rw [compiled_host]
      simp only [parts, callee?, List.flatMap_map, List.flatMap_assoc]
      rw [List.flatMap_congr fun p mem =>
        calls_param fun t part => ih t (List.mem_flatMap.2 ⟨p, mem, part⟩)]

end Statement

/-! ## What converted statements do -/

namespace Param

variable {α : Type} [FromValue α] {onCall : String → Run Value}

/-- A literal gives the same value whether it is converted when it is read or when it is run. -/
theorem eval_narrow (s : Statement) :
    (s.toParam.narrow : Param Statement α).eval (fun t _ => t.eval onCall) =
      (deferred s : Param Statement α).eval (fun t _ => t.eval onCall) := by
  cases s with
  | literal value =>
    rw [Statement.toParam, narrow]
    split
    · next a eq =>
      simp only [eval, Statement.eval, pure_bind, eq]
      rfl
    · rfl
  | _ => rfl

end Param

/-! ## Fixed statements -/

/-- Whether a parameter does not wait for a literal that could have been converted. -/
def Param.Fixed {α : Type} [FromValue α] : Param Statement α → Prop
  | deferred (.literal value) =>
    ∃ problem, (fromValue value : Except ScriptError α) = .error problem
  | _ => True

/-- Whether every parameter of a statement is fixed. -/
def Statement.Converted : Statement → Prop
  | literal _ | reference _ | block _ | attempt _ _ | call _ => True
  | print p | throw p => p.Fixed
  | negate p => p.Fixed
  | wait p => p.Fixed
  | assign _ p => p.Fixed
  | choose condition _ _ => condition.Fixed
  | host _ _ arguments => ∀ p ∈ arguments, p.Fixed

/-- Whether a statement has no literal left to convert. -/
def Statement.Fixed (s : Statement) : Prop := ∀ t, Inside t s → t.Converted

theorem Statement.fixed_iff {s : Statement} :
    s.Fixed ↔ s.Converted ∧ ∀ t ∈ s.parts, t.Fixed :=
  forall_inside_iff

namespace Param

variable {α : Type} [FromValue α]

theorem compiled_eq_self {p : Param Statement α} (fixed : p.Fixed)
    (parts : ∀ t ∈ p.statements, t.compiled = t) : p.compiled = p := by
  cases p with
  | constant a => rfl
  | deferred s =>
    rw [compiled, parts s (.head _)]
    cases s with
    | literal value =>
      obtain ⟨problem, eq⟩ := fixed
      simp only [Statement.toParam, narrow, eq]
    | _ => rfl

end Param

theorem Statement.compiled_eq_self {s : Statement} (h : s.Fixed) : s.compiled = s := by
  induction s using by_parts with
  | step s ih =>
    obtain ⟨converted, fixed⟩ := fixed_iff.1 h
    have same (t) (part : t ∈ s.parts) : t.compiled = t := ih t part (fixed t part)
    cases s with
    | literal | reference | call => simp
    | block body =>
      have same : ∀ t ∈ body, t.compiled = t := same
      rw [compiled_block, List.map_congr_left same, List.map_id']
    | print p => rw [compiled_print, Param.compiled_eq_self converted same]
    | throw p => rw [compiled_throw, Param.compiled_eq_self converted same]
    | negate p => rw [compiled_negate, Param.compiled_eq_self converted same]
    | wait p => rw [compiled_wait, Param.compiled_eq_self converted same]
    | assign name p => rw [compiled_assign, Param.compiled_eq_self converted same]
    | choose condition whenTrue whenFalse =>
      have tested := Param.compiled_eq_self converted fun t part =>
        same t (List.mem_append_left _ part)
      have first := same whenTrue (by simp [parts])
      rw [compiled_choose, tested, first]
      cases whenFalse with
      | none => rfl
      | some other => rw [Option.map_some, same other (by simp [parts])]
    | attempt body clauses =>
      have caught : ∀ c ∈ clauses, (c.1, c.2.compiled) = c := fun c mem =>
        Prod.ext rfl (same c.2 (.tail _ (List.mem_map_of_mem mem)))
      rw [compiled_attempt, same body (.head _), List.map_congr_left caught, List.map_id']
    | host name action arguments =>
      have given : ∀ p ∈ arguments, p.compiled = p := fun p mem =>
        Param.compiled_eq_self (converted p mem) fun t part =>
          same t (List.mem_flatMap.2 ⟨p, mem, part⟩)
      rw [compiled_host, List.map_congr_left given, List.map_id']

end ScriptHost
