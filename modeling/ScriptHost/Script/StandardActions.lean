import ScriptHost.Script.Engine
/-!
# Standard actions

A small set of host actions in the namespaces `text`, `host` and `alt`, and one in the core
namespace. Each evaluates each of its arguments at most once, from left to right; a failing
argument is the action's own failure. `pick` is the one that leaves an argument unevaluated.
-/
namespace ScriptHost.StandardActions

def withArgument (index : Nat) (next : Value → HostSteps) : HostSteps :=
  .argument index fun
    | .ok value => next value
    | .error error => .finish (.error error)

def succeed (value : Value) : HostSteps := .finish (.ok value)

/-- The displays of this many arguments from `index` on, behind those before, as one text. -/
def concatFrom (before : String) : (index count : Nat) → HostSteps
  | _, 0 => succeed (.string before)
  | index, count + 1 => withArgument index fun value =>
    concatFrom (before ++ value.display) (index + 1) count

/-- An action of one argument that converts it. -/
def converting {α : Type} [FromValue α] (toValue : α → Value) : HostAction where
  arity := 1
  steps := withArgument 0 fun value =>
    match (fromValue value : Except ScriptError α) with
    | .ok converted => succeed (toValue converted)
    | .error error => .finish (.error error)

def concat : HostAction := ⟨2, concatFrom "" 0 2⟩
def concat3 : HostAction := ⟨3, concatFrom "" 0 3⟩

/-- An action that takes arguments without looking at them. -/
def fixed (arity : Nat) (text : String) : HostAction := ⟨arity, succeed (.string text)⟩

/-- The second argument if the first is truthy, else the third; the other is not evaluated. -/
def pick : HostAction where
  arity := 3
  steps := withArgument 0 fun condition =>
    withArgument (if condition.isTruthy then 1 else 2) succeed

/-- The event that started the run. -/
def event : HostAction := ⟨0, .event fun payload => succeed (payload.getD .null)⟩

/-- Removes the named variable and returns its value. -/
def unset : HostAction where
  arity := 1
  steps := withArgument 0 fun name =>
    .removeVariable name.display fun old => succeed (old.getD .null)

/-- Fails with an action error of its own. -/
def fail : HostAction where
  arity := 1
  steps := withArgument 0 fun message => .finish (.error (.action "inner" message.display))

/-- Fails as if its argument had the wrong type. -/
def mismatch : HostAction where
  arity := 1
  steps := withArgument 0 fun value => .finish (.error (.typeMismatch "nothing" value))

/-- Raises an error with the given kind and message. -/
def raise : HostAction where
  arity := 2
  steps := withArgument 0 fun kind => withArgument 1 fun message =>
    .finish (.error (.thrown kind.display message.display))

def engine : Engine :=
  [ ("text", "concat", concat), ("text", "concat3", concat3), ("text", "tag", fixed 0 "text/0"),
    ("host", "pick", pick), ("host", "event", event), ("host", "unset", unset),
    ("host", "int", converting fun (n : Int64) => .number (.whole (Whole.ofInt64 n))),
    ("host", "uint", converting fun (n : UInt64) => Value.ofInt n.toNat),
    ("host", "num", converting Value.ofBinary64),
    ("host", "fail", fail), ("host", "mismatch", mismatch), ("host", "raise", raise),
    ("alt", "tag", fixed 1 "alt/1"), ("alt", "print", fixed 0 "alt/print"),
    ("alt", "core-tag", fixed 1 "alt-core/1"), (coreNamespace, "core-tag", fixed 0 "core/0")
  ].foldl (fun engine (space, name, action) => engine.registerAction space name action) Engine.core

end ScriptHost.StandardActions
