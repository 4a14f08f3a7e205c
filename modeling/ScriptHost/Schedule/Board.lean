import ScriptHost.Project.Sync
import ScriptHost.Schedule.Task
/-!
# The schedule board

All tasks of a project with what they share. While the board is active, tasks run: those that
are there when it is activated, and those that come later as soon as they are there. Moving on
to a moment lets the timers of all tasks fire and shows what was printed until then.
-/
namespace ScriptHost

/-- How tasks live: a retired task has no timer, and a new one is started if tasks are to run. -/
def ScheduleTask.kind : EntityKind ScheduleEnvironment ScheduleTask where
  create id entry env :=
    match ScheduleTask.create env id entry with
    | .ok task => (some task, env)
    | .error _ => (none, env)
  update task entry env :=
    let (task, env, _) := task.update entry env
    (task, env)
  retire _ env := env
  activate := ScheduleTask.startIfActive
  loadedEach := ScheduleTask.startIfActive

structure ScheduleBoard where
  env : ScheduleEnvironment
  tasks : Registry ScheduleTask := .empty

namespace ScheduleBoard

def now (board : ScheduleBoard) : Nat := board.env.now

/-- Replaces each task, in the order of the ids. -/
def mapTasks (board : ScheduleBoard)
    (f : ScheduleTask → ScheduleEnvironment → ScheduleTask × ScheduleEnvironment) : ScheduleBoard :=
  let (tasks, env) := Registry.mapEntities f board.tasks board.env
  { env, tasks }

/-- Starts all tasks; those that come later start at once. -/
def activate (board : ScheduleBoard) : ScheduleBoard :=
  { board with env.active := true }.mapTasks ScheduleTask.start

/-- Ends the timers of all tasks; those that come later do not start. -/
def deactivate (board : ScheduleBoard) : ScheduleBoard :=
  { board with env.active := false }.mapTasks fun task env => (task.terminate, env)

/-- Moves on to a moment: the lines that appear until then. -/
def moveTo (board : ScheduleBoard) (moment : Nat) : ScheduleBoard × List TimedLine :=
  let board := board.mapTasks fun task env =>
    let (task, lines) := task.runTo env.clock moment
    (task, { env with screen := env.screen.announce lines })
  let (screen, shown) := board.env.screen.moveTo moment
  ({ board with env.screen := screen }, shown)

/-- The board and the timers that were set since the last time. -/
def takeTimersSet (board : ScheduleBoard) : ScheduleBoard × List TimerSpec :=
  ({ board with env.timersSet := [] }, board.env.timersSet)

end ScheduleBoard
end ScriptHost
