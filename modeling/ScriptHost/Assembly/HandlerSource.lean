import ScriptHost.Assembly.Comments
import ScriptHost.Assembly.Fragment
/-!
# Sources of handlers and schedules

`handlerFragment` puts the control flow of a handler around its configured texts: a guard with
its exception clauses, then a condition, then the routine. `assembleHandler` and
`assembleRoutine` write the sources that are compiled, comments stripped.
-/
namespace ScriptHost

/-- Whether clauses call for a guard. A lone clause without a handler counts as none. -/
def needsGuard : List ExceptionClause → Bool
  | [] => false
  | [only] => !isBlankText only.handler
  | _ => true

/-- The tree of a handler's routine. -/
def handlerFragment (entry handle condition deny : String)
    (clauses : List ExceptionClause) : Fragment :=
  let body := Fragment.literal (if isBlankText handle then nullStatement else handle)
  let body := if needsGuard clauses then .guarded body clauses else body
  let body := if isBlankText condition then body else .conditional condition body deny
  .routine entry body

def assembleHandler (entry handle condition deny : String)
    (clauses : List ExceptionClause) : String :=
  stripComments (handlerFragment entry handle condition deny clauses).render

/-- The source of a routine around plain statements. -/
def assembleRoutine (entry body : String) : String :=
  stripComments (Fragment.routine entry (.literal body)).render

end ScriptHost
