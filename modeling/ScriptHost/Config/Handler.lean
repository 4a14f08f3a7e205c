import ScriptHost.Assembly.HandlerSource
import ScriptHost.Config.Entry
/-!
# Configuration of handlers

The typed fields of a handler's entry, and what a change of its keys calls for.
-/
namespace ScriptHost

structure HandlerConfig where
  /-- The dispatchers that the handler binds to. -/
  bind : List String := []
  /-- Handlers of higher priority run first. -/
  priority : Int64 := 8
  namespaces : List String := []
  condition : String := ""
  deny : String := ""
  handle : String := ""
  exceptions : List ExceptionClause := []
  deriving DecidableEq, Inhabited

namespace HandlerConfig

/-- One exception clause: a table with `catch` and `handle`, or a list of the two. -/
def clause? : Toml.Value → Option ExceptionClause
  | .table entries =>
    let field {α : Type} (name : String) (read : Toml.Value → Option α) (default : α) : Option α :=
      match Table.lookup name entries with
      | none => some default
      | some value => read value
    do
      let matcher ← field "catch" Decode.text? ""
      let handler ← field "handle" (fun value => (Decode.script value).toOption) ""
      some ⟨matcher, handler⟩
  | .array [] => some ⟨"", ""⟩
  | .array [matcher] => (Decode.text? matcher).map fun matcher => ⟨matcher, ""⟩
  | .array [matcher, handler] => do
    let matcher ← Decode.text? matcher
    let handler ← (Decode.script handler).toOption
    some ⟨matcher, handler⟩
  | _ => none

/-- One handler for all errors, or a list of clauses. -/
def exceptionClauses (value : Toml.Value) : Except DecodeProblem (List ExceptionClause) :=
  match Decode.text? value, value with
  | some handler, _ => .ok [⟨"*", handler⟩]
  | none, .array items =>
    match items.mapM clause? with
    | some clauses => .ok clauses
    | none => .error (.noVariant "ExceptionShape")
  | none, _ => .error (.noVariant "ExceptionShape")

def setKey (config : HandlerConfig) (key : String) (value : Toml.Value) :
    Except DecodeProblem HandlerConfig := do
  match key with
  | "bind" => return { config with bind := ← Decode.strings value }
  | "priority" => return { config with priority := ← Decode.integer value }
  | "namespace" => return { config with namespaces := ← Decode.strings value }
  | "condition" => return { config with condition := ← Decode.script value }
  | "deny" => return { config with deny := ← Decode.script value }
  | "handle" => return { config with handle := ← Decode.script value }
  | "exception" => return { config with exceptions := ← exceptionClauses value }
  | _ => return config

/-- The configuration that an entry gives the handler `id`. -/
def ofEntry (id : String) (entry : ConfigEntry) : Except ConfigError HandlerConfig :=
  Decode.entry .handler id {} setKey entry

end HandlerConfig

/-- What a change of a handler's configuration calls for. -/
structure HandlerChanges where
  recompile : Bool := false
  rebind : Bool := false
  reorder : Bool := false
  deriving DecidableEq, Repr

/-- What the change of one key adds. -/
def HandlerChanges.add (changes : HandlerChanges) (key : String) : HandlerChanges :=
  match key with
  | "bind" => { changes with rebind := true, reorder := true }
  | "priority" => { changes with reorder := true }
  | "namespace" | "condition" | "deny" | "handle" | "exception" =>
    { changes with recompile := true }
  | _ => changes

def HandlerChanges.ofKeys (keys : List String) : HandlerChanges := keys.foldl add {}

end ScriptHost
