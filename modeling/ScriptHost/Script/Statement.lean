import ScriptHost.Script.Conversion
/-!
# Statements

The tree that a source is compiled to. Every statement has a value. A parameter of a statement
is either fixed when the source is compiled or the result of a nested statement, evaluated each
time it is reached.

What a host action does is data too: `HostSteps` is the tree of its requests to the run that
performs it, each with a function from the reply to the steps that follow. An action therefore
always ends, and decides itself which of its arguments are evaluated, and when.
-/
namespace ScriptHost

/-- The steps of a host action. -/
inductive HostSteps where
  | finish (result : Except ScriptError Value)
  /-- Evaluates an argument; one that the statement does not have is null. -/
  | argument (index : Nat) (next : Except ScriptError Value → HostSteps)
  /-- Asks for the event that started the run. -/
  | event (next : Option Value → HostSteps)
  | getVariable (name : String) (next : Option Value → HostSteps)
  | setVariable (name : String) (value : Value) (next : HostSteps)
  /-- Removes a variable and replies with the value it had. -/
  | removeVariable (name : String) (next : Option Value → HostSteps)
  | print (line : String) (next : HostSteps)
  | pause (milliseconds : UInt64) (next : HostSteps)

/-- An action that a host provides to scripts. -/
structure HostAction where
  arity : Nat
  steps : HostSteps

/-- A parameter of type `α`. -/
inductive Param (Statement : Type) (α : Type) where
  | constant (value : α)
  | deferred (statement : Statement)

inductive Statement where
  | literal (value : Value)
  /-- The value of a variable, null if it is not set. -/
  | reference (name : String)
  /-- The statements in order; the value of the last, null if there is none. -/
  | block (body : List Statement)
  | print (line : Param Statement String)
  | assign (name : String) (value : Param Statement Value)
  | negate (value : Param Statement Bool)
  | choose (condition : Param Statement Bool) (whenTrue : Statement) (whenFalse : Option Statement)
  /-- Runs a body; if it fails, the first clause whose pattern matches the error. -/
  | attempt (body : Statement) (clauses : List (String × Statement))
  | throw (message : Param Statement String)
  | call (routine : String)
  | wait (milliseconds : Param Statement UInt64)
  | host (name : String) (action : HostAction) (arguments : List (Param Statement Value))

instance : Inhabited Statement := ⟨.literal .null⟩

/-- A statement as a parameter: a literal is fixed, anything else is evaluated when it is
reached. -/
def Statement.toParam : Statement → Param Statement Value
  | literal value => .constant value
  | statement => .deferred statement

namespace Param

/-- A parameter at a type of its own. A fixed value is converted here and now; one that does not
convert stays a statement, so that a run reports it where it is reached. -/
def narrow {α : Type} [FromValue α] : Param Statement Value → Param Statement α
  | constant value =>
    match fromValue value with
    | .ok converted => .constant converted
    | .error _ => .deferred (.literal value)
  | deferred statement => .deferred statement

def isConstant {Statement α : Type} : Param Statement α → Bool
  | constant _ => true
  | deferred _ => false

end Param

namespace Statement

mutual

/-- The routines that a statement calls, anywhere inside it. -/
def calls : Statement → List String
  | literal _ | reference _ => []
  | block body => callsOfAll body
  | print (.deferred statement) | assign _ (.deferred statement) | negate (.deferred statement)
  | throw (.deferred statement) | wait (.deferred statement) => statement.calls
  | print (.constant _) | assign _ (.constant _) | negate (.constant _) | throw (.constant _)
  | wait (.constant _) => []
  | choose condition whenTrue whenFalse =>
    let tested := match condition with
      | .constant _ => []
      | .deferred statement => statement.calls
    let otherwise := match whenFalse with
      | none => []
      | some statement => statement.calls
    tested ++ whenTrue.calls ++ otherwise
  | attempt body clauses => body.calls ++ callsOfClauses clauses
  | call routine => [routine]
  | host _ _ arguments => callsOfParams arguments

def callsOfAll : List Statement → List String
  | [] => []
  | statement :: rest => statement.calls ++ callsOfAll rest

def callsOfClauses : List (String × Statement) → List String
  | [] => []
  | (_, statement) :: rest => statement.calls ++ callsOfClauses rest

def callsOfParams : List (Param Statement Value) → List String
  | [] => []
  | .constant _ :: rest => callsOfParams rest
  | .deferred statement :: rest => statement.calls ++ callsOfParams rest

end

end Statement
end ScriptHost
