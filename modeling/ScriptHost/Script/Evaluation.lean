import ScriptHost.Script.Context
import ScriptHost.Text.Blank
import ScriptHost.Text.Wildcard
/-!
# Running statements

`Statement.eval` gives the meaning of a statement, for any meaning of `call`; it follows the
statement's structure. `callRoutine` is that meaning of `call`: it finds the routine, counts the
call in the context while the routine runs, and fails once 64 calls are inside each other. It
recurses on how many levels are left, so every run ends.
-/
namespace ScriptHost

/-- Whether a `catch` clause handles an error. The empty pattern and `*` handle all; otherwise
the pattern is a wildcard for the kind or for the message of the error, or part of the message.
-/
def ScriptError.isCaughtBy (error : ScriptError) (pattern : String) : Bool :=
  let trimmed := Text.trim pattern.toList
  let message := error.message.toList
  trimmed.isEmpty || trimmed == ['*'] || Text.wildcardMatches pattern.toList error.kind.toList ||
    Text.wildcardMatches pattern.toList message || Text.isInfix trimmed message

/-- A text cut at the first colon that a space follows. -/
def cutAtColon : List Char → Option (List Char × List Char)
  | [] => none
  | ':' :: ' ' :: rest => some ([], rest)
  | c :: rest => (cutAtColon rest).map fun (before, after) => (c :: before, after)

/-- The error that `throw` raises: what stands before the first `: ` is its kind, unless that
has a blank in it or there is none; then the kind is `error`. -/
def ScriptError.ofMessage (message : String) : ScriptError :=
  match cutAtColon message.toList with
  | some (kind, rest) =>
    if kind.any Text.isBlank then .thrown "error" message
    else .thrown (String.ofList kind) (String.ofList rest)
  | none => .thrown "error" message

/-- The error of an action as scripts see it: raised errors and action errors stay as they are,
any other is reported in the name of the action. -/
def ScriptError.fromAction (name : String) : ScriptError → ScriptError
  | action inner message => action inner message
  | thrown kind message => thrown kind message
  | other => action name other.message

namespace Param

/-- The value of a parameter, given how to evaluate the statement it may hold. -/
def eval {α : Type} [FromValue α] (param : Param Statement α)
    (run : (statement : Statement) → param = .deferred statement → Run Value) : Run α :=
  match param with
  | .constant value => pure value
  | .deferred statement => do
    let value ← run statement rfl
    liftM (fromValue value : Except ScriptError α)

end Param

namespace Statement

mutual

/-- The value of a statement, where `onCall` is what calling a routine does. -/
def eval (onCall : String → Run Value) (statement : Statement) : Run Value :=
  match statement with
  | literal value => pure value
  | reference name => do return ((← get).scope.get? name).getD .null
  | block body => evalAll onCall .null body
  | print line => do
    let line ← line.eval fun statement _ => statement.eval onCall
    Run.emit (.line line)
    return .null
  | assign name value => do
    let value ← value.eval fun statement _ => statement.eval onCall
    Run.setVariable name value
    return value
  | negate value => do
    let value ← value.eval fun statement _ => statement.eval onCall
    return .bool !value
  | choose condition whenTrue whenFalse => do
    let condition ← condition.eval fun statement _ => statement.eval onCall
    if condition then whenTrue.eval onCall
    else
      match whenFalse with
      | none => return .null
      | some statement => statement.eval onCall
  | attempt body clauses =>
    tryCatch (body.eval onCall) fun error => handle onCall error clauses
  | throw message => do
    let message ← message.eval fun statement _ => statement.eval onCall
    throwThe ScriptError (.ofMessage message)
  | call routine => onCall routine
  | wait milliseconds => do
    let milliseconds ← milliseconds.eval fun statement _ => statement.eval onCall
    Run.emit (.pause milliseconds)
    return .null
  | host name action arguments =>
    let argument (index : Nat) : Run Value :=
      if h : index < arguments.length then
        arguments[index].eval fun statement _ => statement.eval onCall
      else pure .null
    ExceptT.adapt (.fromAction name) (Run.perform argument action.steps)
termination_by sizeOf statement
decreasing_by
  all_goals try (rename_i eq; subst eq)
  all_goals simp_wf
  all_goals try omega
  · have := List.sizeOf_get arguments ⟨index, h⟩
    simp only [List.get_eq_getElem] at this
    simp_all
    omega

/-- The value of the last of some statements, or `last` if there is none. -/
def evalAll (onCall : String → Run Value) (last : Value) (body : List Statement) : Run Value :=
  match body with
  | [] => pure last
  | statement :: rest => do
    let value ← statement.eval onCall
    evalAll onCall value rest
termination_by sizeOf body

/-- Handles an error with the first clause that catches it; the error stands if none does. -/
def handle (onCall : String → Run Value) (error : ScriptError)
    (clauses : List (String × Statement)) : Run Value :=
  match clauses with
  | [] => throwThe ScriptError error
  | (pattern, body) :: rest =>
    if error.isCaughtBy pattern then do
      Run.setVariable errorVariable (.string error.message)
      body.eval onCall
    else handle onCall error rest
termination_by sizeOf clauses

end

end Statement

/-- Calls a routine of the context, with this many levels left for it and the calls inside it. -/
def callRoutine (levels : Nat) (name : String) : Run Value := do
  let context ← get
  match context.routines.bind (·.get? name) with
  | none => throwThe ScriptError (.blockNotFound name)
  | some routine =>
    match levels with
    | 0 => throwThe ScriptError (.depthExceeded context.depth)
    | levels + 1 => do
      modify fun context => { context with depth := context.depth + 1 }
      let leave : Run Unit := modify fun context => { context with depth := context.depth - 1 }
      let value ← tryCatch (routine.eval (callRoutine levels)) fun error => do
        leave
        throwThe ScriptError error
      leave
      return value

/-- Runs a statement in a context. -/
def Statement.run (statement : Statement) (context : Context) :
    Except ScriptError Value × Context :=
  statement.eval (callRoutine (maxCallDepth - context.depth)) context

end ScriptHost
