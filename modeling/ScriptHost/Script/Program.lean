import ScriptHost.Script.Engine
/-!
# Programs

A program is a compiled unit together with the routines of it that are to run, in order, each
with the id of whoever contributed it. Handlers and schedules have programs of one routine; a
dispatcher's program has one routine for each of its handlers.

Running a program stops at the first routine that fails.
-/
namespace ScriptHost

/-- A routine that a program runs. -/
structure ProgramEntry where
  /-- The id of who contributed the routine. -/
  owner : String
  block : String
  deriving DecidableEq, Repr

/-- A source ready to be compiled. -/
structure ProgramSource where
  text : String := ""
  namespaces : List String := []
  entries : List ProgramEntry := []
  deriving DecidableEq, Repr

structure Program where
  unit : CompiledUnit
  entries : List ProgramEntry

def ProgramSource.compile (source : ProgramSource) (engine : Engine) :
    Except CompileError Program := do
  let unit ← engine.compile source.text source.namespaces
  return { unit, entries := source.entries }

structure EntryFailure where
  owner : String
  error : ScriptError

namespace Program

/-- Runs routines of a unit in one context, until one fails. -/
def runEntries (unit : CompiledUnit) :
    List ProgramEntry → Context → Option EntryFailure × Context
  | [], context => (none, context)
  | entry :: rest, context =>
    match unit.invoke entry.block context with
    | (.ok _, after) => runEntries unit rest after
    | (.error error, after) => (some ⟨entry.owner, error⟩, after)

/-- Runs a program: the number of its routines if none fails. -/
def run (program : Program) (context : Context) : Except EntryFailure Nat × Context :=
  match runEntries program.unit program.entries context with
  | (none, after) => (.ok program.entries.length, after)
  | (some failure, after) => (.error failure, after)

end Program
end ScriptHost
