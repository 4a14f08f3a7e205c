import ScriptHost.Dispatch.Binding
import ScriptHost.Project.Loading
import ScriptHost.Schedule.Board
/-!
# Projects

A project is a directory with settings, files of handlers and files of schedules. Loaded, it has
the dispatchers that the settings name, the handlers bound to them, and a board of schedule
tasks. It can be loaded anew as a whole, or take over one changed file; either reads what it
needs first, so that a file that cannot be read changes nothing.
-/
namespace ScriptHost

/-- How handlers live: a retired handler has left its dispatchers and is gone, and a new one
gives those that it is bound to new programs. After all were loaded, every dispatcher gets a new
program. -/
def Handler.kind : EntityKind DispatchGraph (Key .handler) where
  create id entry g :=
    match g.create id entry with
    | .ok after => (some g.handlers.nextKey, after)
    | .error _ => (none, g)
  update key entry g := (key, (g.update key entry).1)
  retire key g := (g.unbindAll key).drop key
  activate key g := (key, g.recompileBound key)
  loaded _ g := g.recompileAll

structure Project where
  /-- The path of the project's directory. -/
  root : String
  settings : Settings
  graph : DispatchGraph
  handlers : Registry (Key .handler) := .empty
  board : ScheduleBoard

namespace Project

/-- The variable in which handlers find the event that they run for. -/
def eventVariable : String := "event"

def handlersPath (project : Project) : String := Path.join project.root handlersDirectory

def schedulesPath (project : Project) : String := Path.join project.root schedulesDirectory

/-! ## Handlers and schedules -/

/-- Puts handlers made from documents in place of all handlers. -/
def replaceHandlers (project : Project) (documents : List (String × ConfigDocument)) :
    Project × LoadReport :=
  let l := project.handlers.load Handler.kind documents project.graph
  ({ project with handlers := l.registry, graph := l.surroundings }, l.report)

/-- Puts tasks made from documents in place of all tasks. -/
def replaceSchedules (project : Project) (documents : List (String × ConfigDocument)) :
    Project × LoadReport :=
  let l := project.board.tasks.load ScheduleTask.kind documents project.board.env
  ({ project with board := { tasks := l.registry, env := l.surroundings } }, l.report)

/-- Takes over the contents of a file of handlers. -/
def updateHandlers (project : Project) (file : String) (document : ConfigDocument) :
    Project × SyncReport :=
  let y := project.handlers.sync Handler.kind file document project.graph
  ({ project with handlers := y.registry, graph := y.surroundings }, y.report)

/-- Takes over the contents of a file of schedules. -/
def updateSchedules (project : Project) (file : String) (document : ConfigDocument) :
    Project × SyncReport :=
  let y := project.board.tasks.sync ScheduleTask.kind file document project.board.env
  ({ project with board := { tasks := y.registry, env := y.surroundings } }, y.report)

def loadHandlers (project : Project) : Disk (Project × LoadReport) := do
  return project.replaceHandlers (← Disk.prepare project.handlersPath)

def loadSchedules (project : Project) : Disk (Project × LoadReport) := do
  return project.replaceSchedules (← Disk.prepare project.schedulesPath)

/-- Takes over the present contents of a file of handlers. -/
def syncHandlers (project : Project) (path : String) : Disk (Project × SyncReport) := do
  let (file, document) ← Disk.readConfig path
  return project.updateHandlers file document

/-- Takes over the present contents of a file of schedules. -/
def syncSchedules (project : Project) (path : String) : Disk (Project × SyncReport) := do
  let (file, document) ← Disk.readConfig path
  return project.updateSchedules file document

def clearHandlers (project : Project) : Project :=
  let (handlers, graph) := project.handlers.clear Handler.kind project.graph
  { project with handlers, graph }

def clearSchedules (project : Project) : Project :=
  let (tasks, env) := project.board.tasks.clear ScheduleTask.kind project.board.env
  { project with board := { tasks, env } }

/-! ## The whole project -/

/-- What a project takes over, as read from its files. -/
inductive Update where
  /-- The settings, all handlers and all schedules. -/
  | everything (settings : Settings) (handlers schedules : List (String × ConfigDocument))
  /-- The contents of one file of handlers. -/
  | handlers (file : String) (document : ConfigDocument)
  /-- The contents of one file of schedules. -/
  | schedules (file : String) (document : ConfigDocument)

/-- Takes over what was read. The engine stays as it is. -/
def take (project : Project) : Update → Project
  | .everything settings handlers schedules =>
    let graph := project.graph.registerOnly settings.dispatchers
    let board := { project.board with env.dateFormat := settings.dateFormat }
    let (project, _) := { project with settings, graph, board }.replaceHandlers handlers
    (project.replaceSchedules schedules).1
  | .handlers file document => (project.updateHandlers file document).1
  | .schedules file document => (project.updateSchedules file document).1

/-- The project at a path before anything was read. -/
def blank (root : String) (engine : Engine) (clock : WallClock) (settings : Settings) :
    Project where
  root
  settings
  graph := { engine }
  board := { env := { engine, clock, dateFormat := settings.dateFormat } }

/-- Reads a whole project. -/
def readEverything (root : String) :
    Disk (Settings × List (String × ConfigDocument) × List (String × ConfigDocument)) := do
  let settings ← Disk.readSettings root
  let handlers ← Disk.prepare (Path.join root handlersDirectory)
  let schedules ← Disk.prepare (Path.join root schedulesDirectory)
  return (settings, handlers, schedules)

/-- Loads the project at a path; its schedules do not run yet. With `extend` the engine gets the
namespaces that the settings add. -/
def load (root : String) (engine : Engine) (extend : Bool) (clock : WallClock) : Disk Project := do
  let (settings, handlers, schedules) ← readEverything root
  let engine := if extend then settings.namespaces.foldl Engine.register engine else engine
  return (blank root engine clock settings).take (.everything settings handlers schedules)

/-- Loads the settings, all handlers and all schedules anew. -/
def reload (project : Project) : Disk Project := do
  let (settings, handlers, schedules) ← readEverything project.root
  return project.take (.everything settings handlers schedules)

/-- Reads what a change of the project's files calls for: nothing, if the settings say that
changes of its kind are not taken over by themselves. -/
def readChange (project : Project) : FileChange → Disk (Option Update)
  | .handlers path => do
    unless project.settings.reloadHandlers do return none
    let (file, document) ← Disk.readConfig path
    return some (.handlers file document)
  | .schedules path => do
    unless project.settings.reloadSchedules do return none
    let (file, document) ← Disk.readConfig path
    return some (.schedules file document)
  | .settings => do
    let (settings, handlers, schedules) ← readEverything project.root
    return some (.everything settings handlers schedules)

/-- Takes over a change of the project's files. What cannot be read changes nothing. -/
def applyChange (project : Project) (change : FileChange) : StateM FileTree Project := do
  match ← (project.readChange change).run with
  | .ok (some update) => return project.take update
  | _ => return project

/-! ## Running -/

/-- Runs a dispatcher: its result, the context afterwards, and the moment when that is over. -/
def fire (project : Project) (dispatcher : String) (context : Context) :
    Project × Except DispatchError Nat × Context × Nat :=
  let (result, after) := project.graph.fire dispatcher context
  let (screen, stop) := project.board.env.screen.start after.output
  ({ project with board.env.screen := screen }, result, after, stop)

/-- The context of a run for an event, which scripts also find in a variable. -/
def eventContext (event : Value) : Context where
  scope := Table.empty.insert eventVariable event
  event := some event

def start (project : Project) : Project := { project with board := project.board.activate }

def shutdown (project : Project) : Project := { project with board := project.board.deactivate }

/-- Moves on to a moment: the lines that appear until then. -/
def moveTo (project : Project) (moment : Nat) : Project × List TimedLine :=
  let (board, shown) := project.board.moveTo moment
  ({ project with board }, shown)

/-! ## Checking -/

def liveHandlers (project : Project) : List (String × Handler) :=
  project.handlers.toList.filterMap fun (id, owned) =>
    (project.graph.handlers.get? owned.entity).map fun handler => (id, handler)

def liveDispatchers (project : Project) : List (String × Dispatcher) :=
  project.graph.registry.toList.filterMap fun (id, key) =>
    (project.graph.dispatchers.get? key).map fun dispatcher => (id, dispatcher)

/-- Whether every handler, dispatcher and schedule of the project has a program. -/
def isSound (project : Project) : Bool :=
  (project.liveHandlers.all fun (_, handler) => handler.program.isSome) &&
    (project.liveDispatchers.all fun (_, dispatcher) => dispatcher.program.isSome) &&
    (project.board.tasks.values.all fun owned => owned.entity.program.isSome)

end Project
end ScriptHost
