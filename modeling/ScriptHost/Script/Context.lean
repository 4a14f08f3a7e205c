import ScriptHost.Script.Statement
import ScriptHost.Table
/-!
# The context of a run

What a run can see and change: its variables, the event that started it, the routines that
`call` finds, and how many calls it is inside of. Nothing else reaches a script, and in
particular not the clock: what a run prints and how long it pauses is written down in order as
its `output`, and whoever started the run plays that back.
-/
namespace ScriptHost

/-- Calls nest at most this deep within one run. -/
def maxCallDepth : Nat := 64

/-- What a run does to the world. -/
inductive Output where
  | line (text : String)
  | pause (milliseconds : UInt64)
  deriving DecidableEq, Repr

/-- The state of a run. -/
structure Context where
  /-- The variables that are set, with their values. -/
  scope : Table Value := .empty
  event : Option Value := none
  routines : Option (Table Statement) := none
  depth : Nat := 0
  output : Array Output := #[]

/-- The variable that holds the message of the error a `catch` clause handles. -/
def errorVariable : String := "error"

/-- A computation of a run: it reads and changes the context, and may fail. What it did before
it failed stays done. -/
abbrev Run (α : Type) := ExceptT ScriptError (StateM Context) α

namespace Run

def setVariable (name : String) (value : Value) : Run Unit :=
  modify fun context => { context with scope := context.scope.insert name value }

/-- Removes a variable; the value it had, if it was set. -/
def removeVariable (name : String) : Run (Option Value) := do
  let context ← get
  set { context with scope := context.scope.erase name }
  return context.scope.get? name

def emit (output : Output) : Run Unit :=
  modify fun context => { context with output := context.output.push output }

/-- Performs an action; `argument` evaluates one of its arguments. -/
def perform (argument : Nat → Run Value) : HostSteps → Run Value
  | .finish result => liftExcept result
  | .argument index next => do
    let reply ← observe (argument index)
    perform argument (next reply)
  | .event next => do perform argument (next (← get).event)
  | .getVariable name next => do perform argument (next ((← get).scope.get? name))
  | .setVariable name value next => do
    setVariable name value
    perform argument next
  | .removeVariable name next => do perform argument (next (← removeVariable name))
  | .print line next => do
    emit (.line line)
    perform argument next
  | .pause milliseconds next => do
    emit (.pause milliseconds)
    perform argument next
where
  /-- A result of its own as a computation. -/
  liftExcept (result : Except ScriptError Value) : Run Value := ExceptT.mk (pure result)
  /-- A computation that hands on its failure as a result. -/
  observe (run : Run Value) : Run (Except ScriptError Value) := ExceptT.mk (Except.ok <$> run.run)

end Run
end ScriptHost
