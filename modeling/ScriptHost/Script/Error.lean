import ScriptHost.Value
/-!
# What can go wrong with a script

`CompileError` holds the reasons why a source is refused, `ScriptError` the ways a run can fail.
Each cause has one wording, `message`; a `catch` clause sees a failed run as its `kind` and its
`message`.
-/
namespace ScriptHost

/-- A place in a source, lines and columns counted from one; a column is one character. -/
structure Position where
  line : Nat
  column : Nat
  deriving DecidableEq, Repr

def Position.text (p : Position) : String := toString p.line ++ ":" ++ toString p.column

inductive CompileError where
  | malformed (place : Position) (message : String)
  | unknownNamespace (name : String)
  | unknownAction (name : String) (place : Position)
  | duplicateRoutine (name : String)
  | undefinedRoutine (name : String)
  deriving DecidableEq, Repr

def CompileError.message : CompileError → String
  | malformed place message => "syntax error at " ++ place.text ++ ": " ++ message
  | unknownNamespace name => "unknown namespace: " ++ name
  | unknownAction name place => "unknown action '" ++ name ++ "' at " ++ place.text
  | duplicateRoutine name => "routine '" ++ name ++ "' is defined more than once"
  | undefinedRoutine name => "call to undefined routine '" ++ name ++ "'"

inductive ScriptError where
  | thrown (kind message : String)
  | blockNotFound (name : String)
  | typeMismatch (expected : String) (found : Value)
  | action (name message : String)
  | depthExceeded (depth : Nat)
  deriving Inhabited

namespace ScriptError

def message : ScriptError → String
  | thrown kind message => kind ++ ": " ++ message
  | blockNotFound name => "block not found: " ++ name
  | typeMismatch expected found => "type mismatch: expected " ++ expected ++
    ", found " ++ found.text
  | action name message => "action '" ++ name ++ "' failed: " ++ message
  | depthExceeded depth => "call depth exceeded (" ++ toString depth ++ ")"

/-- The class of an error, as exception matchers see it. -/
def kind : ScriptError → String
  | thrown kind _ => kind
  | blockNotFound _ => "block-not-found"
  | typeMismatch .. => "type-mismatch"
  | action .. => "action"
  | depthExceeded _ => "depth-exceeded"

end ScriptError
end ScriptHost
