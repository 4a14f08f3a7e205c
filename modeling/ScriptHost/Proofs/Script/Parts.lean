import ScriptHost.Script.Statement
/-!
# The statements inside a statement

`Statement.parts` are the statements that stand right inside a statement, `Inside` reaches all
of them. Facts about what occurs in a script are stated with `Inside` and proved by
`Statement.by_parts`, which hands on the fact for every part.

**Results.**
* `Statement.by_parts`: induction over the parts of a statement.
* `Statement.calls_eq`: the calls of a statement are its own and those of its parts.
-/
namespace ScriptHost

/-- The statement that a parameter waits for, if it does. -/
def Param.statements {α : Type} : Param Statement α → List Statement
  | constant _ => []
  | deferred statement => [statement]

namespace Statement

/-- The statements that stand right inside a statement. -/
def parts : Statement → List Statement
  | literal _ | reference _ | call _ => []
  | block body => body
  | print param | throw param => param.statements
  | assign _ param => param.statements
  | negate param => param.statements
  | wait param => param.statements
  | choose condition whenTrue whenFalse => condition.statements ++ whenTrue :: whenFalse.toList
  | attempt body clauses => body :: clauses.map (·.2)
  | host _ _ arguments => arguments.flatMap Param.statements

theorem sizeOf_statements {α : Type} [SizeOf α] {param : Param Statement α} {t : Statement}
    (h : t ∈ param.statements) : sizeOf t < sizeOf param := by
  cases param with
  | constant _ => simp [Param.statements] at h
  | deferred s =>
    simp only [Param.statements, List.mem_singleton] at h
    subst h
    simp

theorem sizeOf_parts {s t : Statement} (h : t ∈ s.parts) : sizeOf t < sizeOf s := by
  cases s with
  | literal _ | reference _ | call _ => simp [parts] at h
  | block body =>
    have : sizeOf t < sizeOf body := List.sizeOf_lt_of_mem h
    simp
    omega
  | print param | throw param | negate param | wait param | assign _ param =>
    have := sizeOf_statements h
    simp
    omega
  | choose condition whenTrue whenFalse =>
    rcases List.mem_append.1 h with h | h
    · have := sizeOf_statements h
      simp
      omega
    · cases whenFalse <;> simp at h <;> grind
  | attempt body clauses =>
    rcases List.mem_cons.1 h with rfl | h
    · simp
      omega
    · obtain ⟨clause, mem, rfl⟩ := List.mem_map.1 h
      have := List.sizeOf_lt_of_mem mem
      obtain ⟨pattern, handler⟩ := clause
      simp at this ⊢
      omega
  | host name action arguments =>
    obtain ⟨param, mem, h⟩ := List.mem_flatMap.1 h
    have := List.sizeOf_lt_of_mem mem
    have := sizeOf_statements h
    simp
    omega

/-- What holds of a statement whenever it holds of its parts holds of every statement. -/
theorem by_parts {P : Statement → Prop} (step : ∀ s, (∀ t ∈ s.parts, P t) → P s)
    (s : Statement) : P s :=
  step s fun t _h => by_parts step t
termination_by sizeOf s
decreasing_by exact sizeOf_parts _h

/-- `Inside t s`: the statement `t` stands somewhere inside `s`, or is `s`. -/
inductive Inside (t : Statement) : Statement → Prop
  | self : Inside t t
  | part {s p : Statement} : p ∈ s.parts → Inside t p → Inside t s

theorem inside_iff {t s : Statement} : Inside t s ↔ t = s ∨ ∃ p ∈ s.parts, Inside t p := by
  constructor
  · intro h
    cases h with
    | self => exact .inl rfl
    | part mem inside => exact .inr ⟨_, mem, inside⟩
  · rintro (rfl | ⟨p, mem, inside⟩)
    · exact .self
    · exact .part mem inside

theorem forall_inside_iff {P : Statement → Prop} {s : Statement} : (∀ t, Inside t s → P t) ↔
    P s ∧ ∀ p ∈ s.parts, ∀ t, Inside t p → P t := by
  constructor
  · intro h
    exact ⟨h s .self, fun p part t inside => h t (.part part inside)⟩
  · rintro ⟨self, parts⟩ t inside
    rcases inside_iff.1 inside with rfl | ⟨p, part, inside⟩
    · exact self
    · exact parts p part t inside

/-! ## Calls -/

theorem callsOfAll_eq (body : List Statement) : callsOfAll body = body.flatMap calls := by
  induction body with
  | nil => rw [callsOfAll, List.flatMap_nil]
  | cons s rest ih => rw [callsOfAll, ih, List.flatMap_cons]

theorem callsOfClauses_eq (clauses : List (String × Statement)) :
    callsOfClauses clauses = (clauses.map (·.2)).flatMap calls := by
  induction clauses with
  | nil => rw [callsOfClauses, List.map_nil, List.flatMap_nil]
  | cons clause rest ih => rw [callsOfClauses, ih, List.map_cons, List.flatMap_cons]

theorem callsOfParams_eq (arguments : List (Param Statement Value)) :
    callsOfParams arguments = (arguments.flatMap Param.statements).flatMap calls := by
  induction arguments with
  | nil => rw [callsOfParams, List.flatMap_nil, List.flatMap_nil]
  | cons param rest ih =>
    cases param with
    | constant _ => simp [callsOfParams, Param.statements, ih]
    | deferred _ => simp [callsOfParams, Param.statements, ih]

/-- The routine that a statement calls itself. -/
def callee? : Statement → Option String
  | call routine => some routine
  | _ => none

theorem calls_eq (s : Statement) : s.calls = s.callee?.toList ++ s.parts.flatMap calls := by
  cases s with
  | literal _ | reference _ | call _ => simp [calls, callee?, parts]
  | block body => simp [calls, callee?, parts, callsOfAll_eq]
  | print param | throw param | negate param | wait param | assign _ param =>
    cases param <;> simp [calls, callee?, parts, Param.statements]
  | choose condition whenTrue whenFalse =>
    cases condition <;> cases whenFalse <;> simp [calls, callee?, parts, Param.statements]
  | attempt body clauses => simp [calls, callee?, parts, callsOfClauses_eq]
  | host name action arguments => simp [calls, callee?, parts, callsOfParams_eq]

/-! ## Host actions -/

/-- A host action of this name stands inside a statement. -/
def Uses (s : Statement) (name : String) (action : HostAction) : Prop :=
  ∃ arguments, Inside (.host name action arguments) s

end Statement

def Param.Uses {α : Type} (param : Param Statement α) (name : String)
    (action : HostAction) : Prop :=
  ∃ s ∈ param.statements, s.Uses name action

section Uses

open Statement

variable {name other : String} {action given : HostAction}

theorem Statement.uses_iff {s : Statement} :
    s.Uses name action ↔ (∃ arguments, .host name action arguments = s) ∨
      ∃ p ∈ s.parts, p.Uses name action := by
  constructor
  · rintro ⟨arguments, inside⟩
    rcases inside_iff.1 inside with eq | ⟨p, mem, inside⟩
    · exact .inl ⟨arguments, eq⟩
    · exact .inr ⟨p, mem, arguments, inside⟩
  · rintro (⟨arguments, rfl⟩ | ⟨p, mem, arguments, inside⟩)
    · exact ⟨arguments, .self⟩
    · exact ⟨arguments, .part mem inside⟩

@[simp] theorem Statement.uses_literal {value : Value} : ¬ (literal value).Uses name action := by
  simp [uses_iff (s := literal _), parts]

@[simp] theorem Statement.uses_reference : ¬ (reference other).Uses name action := by
  simp [uses_iff (s := reference _), parts]

@[simp] theorem Statement.uses_call : ¬ (call other).Uses name action := by
  simp [uses_iff (s := call _), parts]

@[simp] theorem Statement.uses_block {body : List Statement} :
    (block body).Uses name action ↔ ∃ s ∈ body, s.Uses name action := by
  simp [uses_iff (s := block _), parts]

@[simp] theorem Statement.uses_print {line : Param Statement String} :
    (print line).Uses name action ↔ line.Uses name action := by
  simp [uses_iff (s := print _), parts, Param.Uses]

@[simp] theorem Statement.uses_assign {value : Param Statement Value} :
    (assign other value).Uses name action ↔ value.Uses name action := by
  simp [uses_iff (s := assign ..), parts, Param.Uses]

@[simp] theorem Statement.uses_negate {value : Param Statement Bool} :
    (negate value).Uses name action ↔ value.Uses name action := by
  simp [uses_iff (s := negate _), parts, Param.Uses]

@[simp] theorem Statement.uses_throw {message : Param Statement String} :
    (throw message).Uses name action ↔ message.Uses name action := by
  simp [uses_iff (s := throw _), parts, Param.Uses]

@[simp] theorem Statement.uses_wait {milliseconds : Param Statement UInt64} :
    (wait milliseconds).Uses name action ↔ milliseconds.Uses name action := by
  simp [uses_iff (s := wait _), parts, Param.Uses]

@[simp] theorem Statement.uses_choose {condition : Param Statement Bool} {whenTrue : Statement}
    {whenFalse : Option Statement} :
    (choose condition whenTrue whenFalse).Uses name action ↔
      condition.Uses name action ∨ whenTrue.Uses name action ∨
        ∃ s ∈ whenFalse, s.Uses name action := by
  simp [uses_iff (s := choose ..), parts, Param.Uses, or_and_right, exists_or]

@[simp] theorem Statement.uses_attempt {body : Statement} {clauses : List (String × Statement)} :
    (attempt body clauses).Uses name action ↔
      body.Uses name action ∨ ∃ clause ∈ clauses, clause.2.Uses name action := by
  simp only [uses_iff (s := attempt ..), parts, List.mem_cons, List.mem_map]
  grind

@[simp] theorem Statement.uses_host {arguments : List (Param Statement Value)} :
    (host other given arguments).Uses name action ↔
      (name = other ∧ action = given) ∨ ∃ param ∈ arguments, param.Uses name action := by
  have self : (∃ given', host name action given' = host other given arguments) ↔ name = other ∧
      action = given := by
    simp
  simp only [uses_iff (s := host ..), self, parts, Param.Uses, List.mem_flatMap]
  grind

/-- A literal that became a parameter may be gone; every other statement is what the parameter
waits for. -/
@[simp] theorem Param.uses_toParam {s : Statement} : s.toParam.Uses name action ↔
    s.Uses name action := by
  cases s <;> simp [toParam, Param.Uses, Param.statements]

@[simp] theorem Param.uses_narrow {α : Type} [FromValue α] {param : Param Statement Value} :
    (param.narrow : Param Statement α).Uses name action ↔ param.Uses name action := by
  cases param with
  | deferred _ => simp [Param.narrow, Param.Uses, Param.statements]
  | constant value =>
    simp only [Param.narrow]
    split <;> simp [Param.Uses, Param.statements]

end Uses
end ScriptHost
