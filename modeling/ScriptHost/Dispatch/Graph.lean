import ScriptHost.Config.Handler
import ScriptHost.Script.Program
import ScriptHost.Store
/-!
# The dispatch graph

Handlers are scripts made from configuration; dispatchers are the named points at which they
run. A handler may be bound to many dispatchers and a dispatcher may have many members. Each
side keeps the keys of the other: a handler those of the dispatchers it is bound to, a
dispatcher those of its members. The registry says which dispatcher an id stands for at the
moment; a dispatcher that is no longer registered lives on for whoever still holds its key,
while a handler that is gone is no longer a member of anything.

Handlers and dispatchers each have a live program. `recompileHandler` and `recompile` replace it
by that of the present source; a source that does not compile leaves it as it is.
-/
namespace ScriptHost

/-- A script made from a configuration entry, bound to dispatchers. -/
structure Handler where
  id : String
  /-- The entry that the configuration was read from. -/
  entry : ConfigEntry
  config : HandlerConfig
  /-- The dispatchers it is bound to, in the order in which that happened. -/
  bound : List (Key .dispatcher) := []
  program : Option Program := none

namespace Handler

def routineName (id : String) : String := "handler_" ++ ((Digest.ofText id).take 16).toString

def routine (handler : Handler) : String := routineName handler.id

def source (handler : Handler) : ProgramSource where
  text := assembleHandler handler.routine handler.config.handle handler.config.condition
    handler.config.deny handler.config.exceptions
  namespaces := handler.config.namespaces
  entries := [⟨handler.id, handler.routine⟩]

end Handler

/-- A named point at which handlers run. -/
structure Dispatcher where
  id : String
  /-- The handlers that were bound, in that order; some may be gone. -/
  members : List (Key .handler) := []
  program : Option Program := none
  /-- How often the program was replaced. -/
  revision : Nat := 0

structure DispatchGraph where
  engine : Engine
  handlers : Store .handler Handler := .empty
  dispatchers : Store .dispatcher Dispatcher := .empty
  /-- The dispatchers that ids stand for. -/
  registry : Table (Key .dispatcher) := .empty

namespace DispatchGraph

/-! ## The registry -/

/-- Registers a dispatcher under an id that is not taken. -/
def register (g : DispatchGraph) (id : String) : DispatchGraph :=
  if g.registry.contains id then g
  else
    { g with
      dispatchers := g.dispatchers.add { id }
      registry := g.registry.insert id g.dispatchers.nextKey }

/-- Registers exactly the given ids; those that were registered before keep their dispatchers. -/
def registerOnly (g : DispatchGraph) (ids : List String) : DispatchGraph :=
  ids.foldl register { g with registry := g.registry.filter fun id _ => ids.contains id }

/-! ## Members -/

/-- The members of a list that are not gone. -/
def living (g : DispatchGraph) (members : List (Key .handler)) : List (Key .handler) :=
  members.filter g.handlers.contains

def isMember (g : DispatchGraph) (d : Key .dispatcher) (h : Key .handler) : Bool :=
  match g.dispatchers.get? d with
  | none => false
  | some dispatcher => (g.living dispatcher.members).contains h

def addMember (g : DispatchGraph) (d : Key .dispatcher) (h : Key .handler) : DispatchGraph :=
  { g with dispatchers := g.dispatchers.modify d fun dispatcher =>
      let living := g.living dispatcher.members
      { dispatcher with members := if living.contains h then living else living ++ [h] } }

def removeMember (g : DispatchGraph) (d : Key .dispatcher) (h : Key .handler) : DispatchGraph :=
  { g with dispatchers := g.dispatchers.modify d fun dispatcher =>
      { dispatcher with members := (g.living dispatcher.members).filter (· != h) } }

/-- The number of members that a dispatcher keeps track of, gone or not. -/
def memberCount (g : DispatchGraph) (d : Key .dispatcher) : Nat :=
  match g.dispatchers.get? d with
  | none => 0
  | some dispatcher => dispatcher.members.length

/-- Puts a handler before the first of ranked ones that is not of higher priority. -/
def insertRanked (handler : Handler) : List Handler → List Handler
  | [] => [handler]
  | other :: rest =>
    if other.config.priority ≤ handler.config.priority then handler :: other :: rest
    else other :: insertRanked handler rest

/-- Handlers by priority, the highest first; those of one priority stay in their order. -/
def ranked (handlers : List Handler) : List Handler := handlers.foldr insertRanked []

/-- The living members of a dispatcher in the order in which they run: by priority, the highest
first, and of one priority in the order in which they were bound. -/
def handlersOf (g : DispatchGraph) (d : Key .dispatcher) : List Handler :=
  match g.dispatchers.get? d with
  | none => []
  | some dispatcher => ranked (dispatcher.members.filterMap g.handlers.get?)

/-! ## Programs -/

/-- A source with that of a handler's program behind it, under the namespaces of both. A handler
without a program contributes nothing. -/
def joinSource (source : ProgramSource) (handler : Handler) : ProgramSource :=
  match handler.program with
  | none => source
  | some program =>
    let text := program.unit.source
    { text := source.text ++ text ++ (if text.endsWith "\n" then "" else "\n")
      namespaces := program.unit.namespaces.foldl
        (fun known name => if known.contains name then known else known ++ [name]) source.namespaces
      entries := source.entries ++ [⟨handler.id, handler.routine⟩] }

/-- The source of a dispatcher over these handlers, one after the other. -/
def joinedSource (handlers : List Handler) : ProgramSource := handlers.foldl joinSource {}

/-- The source of a dispatcher over its present members. -/
def sourceOf (g : DispatchGraph) (d : Key .dispatcher) : ProgramSource :=
  joinedSource (g.handlersOf d)

/-- Replaces the program of a dispatcher by that of its present source, if that compiles. -/
def recompile (g : DispatchGraph) (d : Key .dispatcher) : DispatchGraph :=
  match (g.sourceOf d).compile g.engine with
  | .error _ => g
  | .ok program =>
    { g with dispatchers := g.dispatchers.modify d fun dispatcher =>
        { dispatcher with program := some program, revision := dispatcher.revision + 1 } }

/-- Replaces the programs of some dispatchers, one after the other. -/
def recompileEach (g : DispatchGraph) (keys : List (Key .dispatcher)) : DispatchGraph :=
  keys.foldl recompile g

/-- Replaces the programs of all registered dispatchers, in the order of their ids. -/
def recompileAll (g : DispatchGraph) : DispatchGraph := g.recompileEach g.registry.values

/-- Replaces the program of a handler by that of its present source; whether that compiled. -/
def recompileHandler (g : DispatchGraph) (h : Key .handler) : DispatchGraph × Bool :=
  match g.handlers.get? h with
  | none => (g, false)
  | some handler =>
    match handler.source.compile g.engine with
    | .error _ => (g, false)
    | .ok program =>
      ({ g with handlers := g.handlers.modify h fun handler =>
        { handler with program := some program } }, true)

end DispatchGraph

/-! ## Running -/

inductive DispatchError where
  | notFound (dispatcher : String)
  | handlerFailed (dispatcher handler : String) (error : ScriptError)

def DispatchError.message : DispatchError → String
  | notFound dispatcher => "Dispatcher not found: " ++ dispatcher
  | handlerFailed dispatcher handler error =>
    "Handler '" ++ handler ++ "' failed in dispatcher '" ++ dispatcher ++ "': " ++ error.message

/-- Runs the program of a dispatcher: how many routines ran. Without a program there is nothing
to run. -/
def Dispatcher.run (dispatcher : Dispatcher) (context : Context) :
    Except DispatchError Nat × Context :=
  match dispatcher.program with
  | none => (.ok 0, context)
  | some program =>
    let (result, after) := program.run context
    (result.mapError fun failure => .handlerFailed dispatcher.id failure.owner failure.error, after)

def Handler.run (handler : Handler) (context : Context) : Except ScriptError Value × Context :=
  match handler.program with
  | none => (.error (.blockNotFound handler.routine), context)
  | some program => program.unit.invoke handler.routine context

/-- Runs the dispatcher that an id stands for. -/
def DispatchGraph.fire (g : DispatchGraph) (id : String) (context : Context) :
    Except DispatchError Nat × Context :=
  match (g.registry.get? id).bind g.dispatchers.get? with
  | none => (.error (.notFound id), context)
  | some dispatcher => dispatcher.run context

end ScriptHost
