import ScriptHost.Proofs.Script.Converting
/-!
# Programs with nothing converted

A `Term` is a statement as it is written: every argument is a term again, be it a literal or not.
`Term.eval` runs it as it stands. It evaluates an argument each time it comes to it, and makes of
the value what the statement needs; if that fails, it fails there and then. Calls find terms too.

What is compiled of a term (`Term.compile`) has a literal converted wherever a statement needs it at
a type of its own.

**Results.**
* `Term.eval_alike`: a term and what is compiled of it do the same if their calls do.
* `Term.call_alike`: their calls do.
* `invoke_compiled`: so do the blocks of a program and those of the unit that is compiled of it.
-/
namespace ScriptHost

inductive Term where
  | literal (value : Value)
  | reference (name : String)
  | block (body : List Term)
  | print (line : Term)
  | assign (name : String) (value : Term)
  | negate (value : Term)
  | choose (condition whenTrue : Term) (whenFalse : Option Term)
  | attempt (body : Term) (clauses : List (String × Term))
  | throw (message : Term)
  | call (routine : String)
  | wait (milliseconds : Term)
  | host (name : String) (action : HostAction) (arguments : List Term)

namespace Term

/-! ## Running terms -/

/-- Evaluates an argument, and makes of its value what is needed. -/
def ask {α : Type} [FromValue α] (argument : Run Value) : Run α := do
  let value ← argument
  liftM (fromValue value : Except ScriptError α)

mutual

/-- The value of a term, where `onCall` is what calling a routine does. -/
def eval (onCall : String → Run Value) : Term → Run Value
  | literal value => pure value
  | reference name => do return ((← get).scope.get? name).getD .null
  | block body => evalAll onCall .null body
  | print line => do
    let line : String ← ask (line.eval onCall)
    Run.emit (.line line)
    return .null
  | assign name value => do
    let value : Value ← ask (value.eval onCall)
    Run.setVariable name value
    return value
  | negate value => do
    let value : Bool ← ask (value.eval onCall)
    return .bool !value
  | choose condition whenTrue none => do
    let condition : Bool ← ask (condition.eval onCall)
    if condition then whenTrue.eval onCall else return .null
  | choose condition whenTrue (some whenFalse) => do
    let condition : Bool ← ask (condition.eval onCall)
    if condition then whenTrue.eval onCall else whenFalse.eval onCall
  | attempt body clauses => tryCatch (body.eval onCall) fun error => handle onCall error clauses
  | throw message => do
    let message : String ← ask (message.eval onCall)
    throwThe ScriptError (.ofMessage message)
  | call routine => onCall routine
  | wait milliseconds => do
    let milliseconds : UInt64 ← ask (milliseconds.eval onCall)
    Run.emit (.pause milliseconds)
    return .null
  | host name action arguments =>
    ExceptT.adapt (.fromAction name) (Run.perform (argument onCall arguments) action.steps)

def evalAll (onCall : String → Run Value) (last : Value) : List Term → Run Value
  | [] => pure last
  | term :: rest => do
    let value ← term.eval onCall
    evalAll onCall value rest

def handle (onCall : String → Run Value) (error : ScriptError) : List (String × Term) → Run Value
  | [] => throwThe ScriptError error
  | (pattern, body) :: rest =>
    if error.isCaughtBy pattern then do
      Run.setVariable errorVariable (.string error.message)
      body.eval onCall
    else handle onCall error rest

/-- The value of an argument of a host action; one that is not there is null. -/
def argument (onCall : String → Run Value) : List Term → Nat → Run Value
  | [], _ => pure .null
  | term :: _, 0 => ask (term.eval onCall)
  | _ :: rest, index + 1 => argument onCall rest index

end

/-- Calls a routine of a program, with this many levels left for it and the calls inside it. -/
def runRoutine (program : Table Term) (levels : Nat) (name : String) : Run Value := do
  let context ← get
  match program.get? name with
  | none => throwThe ScriptError (.blockNotFound name)
  | some routine =>
    match levels with
    | 0 => throwThe ScriptError (.depthExceeded context.depth)
    | levels + 1 => do
      modify fun context => { context with depth := context.depth + 1 }
      let leave : Run Unit := modify fun context => { context with depth := context.depth - 1 }
      let value ← tryCatch (routine.eval (runRoutine program levels)) fun error => do
        leave
        throwThe ScriptError error
      leave
      return value

/-- Runs a block of a program. No compiled routine is in sight meanwhile. -/
def invoke (program : Table Term) (block : String) (context : Context) :
    Except ScriptError Value × Context :=
  match program.get? block with
  | none => (.error (.blockNotFound block), context)
  | some term =>
    let (result, after) := term.eval (runRoutine program (maxCallDepth - context.depth))
      { context with routines := some .empty }
    (result, { after with routines := context.routines })

/-! ## Compiling terms -/

mutual

def compile : Term → Statement
  | literal value => .literal value
  | reference name => .reference name
  | block body => .block (compileAll body)
  | print line => .print line.compile.toParam.narrow
  | assign name value => .assign name value.compile.toParam
  | negate value => .negate value.compile.toParam.narrow
  | choose condition whenTrue none =>
    .choose condition.compile.toParam.narrow whenTrue.compile none
  | choose condition whenTrue (some whenFalse) =>
    .choose condition.compile.toParam.narrow whenTrue.compile (some whenFalse.compile)
  | attempt body clauses => .attempt body.compile (compileClauses clauses)
  | throw message => .throw message.compile.toParam.narrow
  | call routine => .call routine
  | wait milliseconds => .wait milliseconds.compile.toParam.narrow
  | host name action arguments => .host name action (compileArguments arguments)

def compileAll : List Term → List Statement
  | [] => []
  | term :: rest => term.compile :: compileAll rest

def compileClauses : List (String × Term) → List (String × Statement)
  | [] => []
  | (pattern, body) :: rest => (pattern, body.compile) :: compileClauses rest

def compileArguments : List Term → List (Param Statement Value)
  | [] => []
  | term :: rest => term.compile.toParam :: compileArguments rest

end

/-! ## Both do the same -/

section Alike

variable {blocks : Table Statement} {onCall onCall' : String → Run Value}

/-- A parameter that was converted as far as it could be does what an argument does that is
converted when it is reached. -/
theorem ask_alike {α : Type} [FromValue α] {s : Statement} {argument : Run Value}
    (h : Alike blocks .empty (s.eval onCall) argument) :
    Alike blocks .empty ((s.toParam.narrow : Param Statement α).eval fun t _ => t.eval onCall)
      (ask argument) := by
  rw [Param.eval_narrow]
  exact h.bind fun value => .lift _

/-- A value is needed as it is: nothing was converted. -/
theorem ask_value_alike {s : Statement} {argument : Run Value}
    (h : Alike blocks .empty (s.eval onCall) argument) :
    Alike blocks .empty (s.toParam.eval fun t _ => t.eval onCall) (ask argument) := by
  rw [← Param.narrow_value s.toParam]
  exact ask_alike h

mutual

theorem eval_alike (calls : ∀ routine, Alike blocks .empty (onCall routine) (onCall' routine))
    (t : Term) :
    Alike blocks .empty (t.compile.eval onCall) (t.eval onCall') := by
  cases t with
  | literal value =>
    rw [compile, Statement.eval, eval]
    exact .pure value
  | reference name =>
    rw [compile, Statement.eval, eval]
    exact .get fun context _ => .pure _
  | block body =>
    rw [compile, Statement.eval, eval]
    exact evalAll_alike calls body .null
  | print line =>
    rw [compile, Statement.eval, eval]
    exact (ask_alike (eval_alike calls line)).bind fun line => (Alike.emit _).bind fun _ => .pure _
  | assign name value =>
    rw [compile, Statement.eval, eval]
    exact (ask_value_alike (eval_alike calls value)).bind fun value =>
      (Alike.setVariable name value).bind fun _ => .pure _
  | negate value =>
    rw [compile, Statement.eval, eval]
    exact (ask_alike (eval_alike calls value)).bind fun value => .pure _
  | choose condition whenTrue whenFalse =>
    cases whenFalse with
    | none =>
      rw [compile, Statement.eval, eval]
      refine (ask_alike (eval_alike calls condition)).bind fun holds => ?_
      split
      · exact eval_alike calls whenTrue
      · exact .pure _
    | some whenFalse =>
      rw [compile, Statement.eval, eval]
      refine (ask_alike (eval_alike calls condition)).bind fun holds => ?_
      split
      · exact eval_alike calls whenTrue
      · exact eval_alike calls whenFalse
  | attempt body clauses =>
    rw [compile, Statement.eval, eval]
    exact (eval_alike calls body).tryCatch fun error => handle_alike calls clauses error
  | throw message =>
    rw [compile, Statement.eval, eval]
    exact (ask_alike (eval_alike calls message)).bind fun message => .throw _
  | call routine =>
    rw [compile, Statement.eval, eval]
    exact calls routine
  | wait milliseconds =>
    rw [compile, Statement.eval, eval]
    exact (ask_alike (eval_alike calls milliseconds)).bind fun milliseconds =>
      (Alike.emit _).bind fun _ => .pure _
  | host name action arguments =>
    rw [compile, Statement.eval, eval]
    exact .adapt _ (.perform (argument_alike calls arguments) _)

theorem evalAll_alike (calls : ∀ routine, Alike blocks .empty (onCall routine) (onCall' routine))
    (body : List Term) (last : Value) :
    Alike blocks .empty (Statement.evalAll onCall last (compileAll body))
      (evalAll onCall' last body) := by
  cases body with
  | nil =>
    rw [compileAll, Statement.evalAll, evalAll]
    exact .pure last
  | cons t rest =>
    rw [compileAll, Statement.evalAll, evalAll]
    exact (eval_alike calls t).bind fun value => evalAll_alike calls rest value

theorem handle_alike (calls : ∀ routine, Alike blocks .empty (onCall routine) (onCall' routine))
    (clauses : List (String × Term)) (error : ScriptError) :
    Alike blocks .empty (Statement.handle onCall error (compileClauses clauses))
      (handle onCall' error clauses) := by
  cases clauses with
  | nil =>
    rw [compileClauses, Statement.handle, handle]
    exact .throw error
  | cons clause rest =>
    obtain ⟨pattern, body⟩ := clause
    rw [compileClauses, Statement.handle, handle]
    split
    · exact (Alike.setVariable _ _).bind fun _ => eval_alike calls body
    · exact handle_alike calls rest error

theorem argument_alike (calls : ∀ routine, Alike blocks .empty (onCall routine) (onCall' routine))
    (arguments : List Term) (index : Nat) :
    Alike blocks .empty
      (if h : index < (compileArguments arguments).length then
        (compileArguments arguments)[index].eval fun t _ => t.eval onCall
      else pure .null)
      (argument onCall' arguments index) := by
  cases arguments with
  | nil =>
    rw [argument]
    exact .pure Value.null
  | cons t rest =>
    cases index with
    | zero =>
      rw [argument]
      exact ask_value_alike (eval_alike calls t)
    | succ index =>
      have others := argument_alike calls rest index
      rw [argument]
      by_cases inside : index < (compileArguments rest).length
      · have further : index + 1 < (compileArguments (t :: rest)).length := Nat.succ_lt_succ inside
        rw [dif_pos inside] at others
        rw [dif_pos further]
        exact others
      · have beyond : ¬ index + 1 < (compileArguments (t :: rest)).length := fun h =>
          inside (Nat.lt_of_succ_lt_succ h)
        rw [dif_neg inside] at others
        rw [dif_neg beyond]
        exact others

end

end Alike

def compileTable (program : Table Term) : Table Statement := program.map fun _ t => t.compile

/-- Calls of a program and calls of what is compiled of it do the same. -/
theorem call_alike (program : Table Term) (levels : Nat) : ∀ routine,
    Alike (compileTable program) .empty (callRoutine levels routine)
      (runRoutine program levels routine) := by
  induction levels with
  | zero =>
    intro routine
    rw [callRoutine, runRoutine]
    refine .get fun context same => ?_
    simp only [same, Option.bind_some, compileTable, Table.get?_map]
    cases program.get? routine with
    | none => exact .throw _
    | some term => exact .throw _
  | succ levels ih =>
    intro routine
    rw [callRoutine, runRoutine]
    refine .get fun context same => ?_
    simp only [same, Option.bind_some, compileTable, Table.get?_map]
    cases program.get? routine with
    | none => exact .throw _
    | some term => exact (eval_alike ih term).inside

/-- Every block of a program and the block that is compiled of it do the same. -/
theorem invoke_compiled (program : Table Term) {unit : CompiledUnit}
    (compiled : unit.blocks = compileTable program) (block : String) (context : Context) :
    unit.invoke block context = invoke program block context := by
  rw [CompiledUnit.invoke, invoke, compiled]
  simp only [compileTable, Table.get?_map]
  cases program.get? block with
  | none => rfl
  | some term =>
    obtain ⟨-, eq⟩ := eval_alike (call_alike program (maxCallDepth - context.depth)) term
      { context with routines := some (compileTable program) } rfl
    simp only [Context.under] at eq
    simp only [Option.map_some, Statement.run, eq]
    rfl

end Term
end ScriptHost
