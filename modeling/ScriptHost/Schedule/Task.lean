import ScriptHost.Assembly.HandlerSource
import ScriptHost.Config.Schedule
import ScriptHost.Schedule.Timer
import ScriptHost.Schedule.Timing
import ScriptHost.Script.Program
import ScriptHost.Script.Timeline
/-!
# Schedule tasks

A task runs a script at planned times. Its timing is resolved from its configuration when that
changes, and it has one timer at most: starting a task ends the timer it had and sets a new one
after the plan of the moment, if there is one. Each firing checks again whether the task's end
has been reached.

A firing's script runs in a context of its own, so tasks do not touch each other: each is moved
through time by itself, and what they print is put together by the moments when it is printed.
-/
namespace ScriptHost

/-- Where tasks read the time of the day. -/
inductive WallClock where
  /-- A clock that goes on by itself and showed this instant at the start. -/
  | following (start : Int)
  /-- A clock that stands still. -/
  | standing (now : Int)

/-- What a clock shows at a moment, in milliseconds since the start. -/
def WallClock.read (clock : WallClock) (moment : Nat) : Int :=
  match clock with
  | following start => start + moment
  | standing now => now

/-- What tasks share. -/
structure ScheduleEnvironment where
  engine : Engine
  clock : WallClock
  screen : Screen := {}
  /-- The pattern of dates of tasks that have none of their own. -/
  dateFormat : String
  /-- Whether tasks are to run as soon as they are there. -/
  active : Bool := false
  /-- The timers that were set, in that order. -/
  timersSet : List TimerSpec := []

namespace ScheduleEnvironment

def now (env : ScheduleEnvironment) : Nat := env.screen.now

def wallTime (env : ScheduleEnvironment) : Int := env.clock.read env.now

end ScheduleEnvironment

/-- The timing of a configuration. A start or an end that cannot be read counts as unset, and a
period that cannot be read makes the timing invalid. -/
structure ResolvedTiming where
  timing : Timing
  problem : Option TimingError

/-- Resolves the timing of a configuration; `dateFormat` is the pattern it has if it names none. -/
def ScheduleConfig.resolve (config : ScheduleConfig) (dateFormat : String) : ResolvedTiming :=
  let pattern := config.dateFormat.getD dateFormat
  let instant (text : Option String) : Int :=
    (text.bind (Instant.read? · pattern)).getD Instant.unset
  let timing (period : Nat) : Timing :=
    { start := instant config.start, stop := instant config.stop, period, async := config.async }
  match config.period.map Period.read with
  | none => ⟨timing 0, none⟩
  | some (.ok period) => ⟨timing period, none⟩
  | some (.error problem) => ⟨timing 0, some problem⟩

structure ScheduleTask where
  id : String
  /-- The entry that the configuration was read from. -/
  entry : ConfigEntry
  config : ScheduleConfig
  /-- The pattern of dates that was common when the task was made. -/
  dateFormat : String
  resolved : ResolvedTiming
  program : Option Program := none
  timer : Timer := .ended
  /-- The moment when all its firings so far are over. -/
  busyUntil : Nat := 0

namespace ScheduleTask

def timing (task : ScheduleTask) : Timing := task.resolved.timing

/-- What a task without a script of its own runs. -/
def placeholderScript (id : String) : String :=
  let escaped := id.toList.flatMap fun c => if c = '"' then ['\\', '"'] else [c]
  "print *\"schedule " ++ String.ofList escaped ++ " has no execution\""

def source (task : ScheduleTask) : ProgramSource where
  text := assembleRoutine mainRoutine (task.config.execute.getD (placeholderScript task.id))
  namespaces := task.config.namespaces
  entries := [⟨task.id, mainRoutine⟩]

/-- Replaces the program of a task by that of its present source, if that compiles. -/
def recompile (task : ScheduleTask) (engine : Engine) : ScheduleTask :=
  match task.source.compile engine with
  | .error _ => task
  | .ok program => { task with program := some program }

/-- Makes a task from an entry, compiled and not started. -/
def create (env : ScheduleEnvironment) (id : String) (entry : ConfigEntry) :
    Except ConfigError ScheduleTask := do
  let config ← ScheduleConfig.ofEntry id entry
  let resolved := config.resolve env.dateFormat
  return recompile { id, entry, config, dateFormat := env.dateFormat, resolved } env.engine

/-- Runs the script of a task, in a context of its own. -/
def output (task : ScheduleTask) : Array Output :=
  match task.program with
  | none => #[]
  | some program => (program.unit.invoke mainRoutine {}).2.output

/-- Runs the script of a task now; the moment when it is over. -/
def execute (task : ScheduleTask) (env : ScheduleEnvironment) : ScheduleEnvironment × Nat :=
  let (screen, stop) := env.screen.start task.output
  ({ env with screen }, stop)

/-- The timer that a task is to have as seen at an instant, if its timing is valid and not
expired. -/
def nextTimer? (task : ScheduleTask) (now : Int) : Option TimerSpec :=
  match task.resolved.problem, plan now task.timing with
  | none, .ok (.once delay) => some ⟨task.timing.async, delay, none⟩
  | none, .ok (.periodic delay period) => some ⟨task.timing.async, delay, some period⟩
  | _, _ => none

def terminate (task : ScheduleTask) : ScheduleTask := { task with timer := .ended }

/-- Ends the timer of a task and sets a new one after the plan of the moment. -/
def start (task : ScheduleTask) (env : ScheduleEnvironment) : ScheduleTask × ScheduleEnvironment :=
  match task.nextTimer? env.wallTime with
  | none => (task.terminate, env)
  | some spec =>
    ({ task with timer := spec.set env.now }, { env with timersSet := env.timersSet ++ [spec] })

/-- Starts a task if tasks are to run. -/
def startIfActive (task : ScheduleTask) (env : ScheduleEnvironment) :
    ScheduleTask × ScheduleEnvironment :=
  if env.active then task.start env else (task, env)

/-- Gives a task a new entry, and does what the changed keys call for. An entry that cannot be
read changes nothing. -/
def update (task : ScheduleTask) (entry : ConfigEntry) (env : ScheduleEnvironment) :
    ScheduleTask × ScheduleEnvironment × ScheduleChanges :=
  match ScheduleConfig.ofEntry task.id entry with
  | .error _ => (task, env, {})
  | .ok config =>
    let changes := ScheduleChanges.ofKeys (task.entry.changedKeys entry)
    let task := { task with entry, config, resolved := config.resolve task.dateFormat }
    let task := if changes.recompile then task.recompile env.engine else task
    let (task, env) := if changes.restart then task.start env else (task, env)
    (task, env, changes)

/-- What firing a task does, with what it printed and when its firings are over: nothing once
the end of its timing has been reached. -/
def job (task : ScheduleTask) (clock : WallClock) : TimerJob (List TimedLine × Nat) :=
  fun moment (lines, busy) =>
    if task.timing.isExpired (clock.read moment) then ((lines, busy), none)
    else
      let (printed, stop) := Output.play moment task.output.toList
      ((lines ++ printed, max busy stop), some stop)

/-- Moves a task on to a moment; what its firings until then print, now or later. -/
def runTo (task : ScheduleTask) (clock : WallClock) (moment : Nat) :
    ScheduleTask × List TimedLine :=
  let ((lines, busyUntil), timer) := task.timer.runTo (task.job clock) moment ([], task.busyUntil)
  ({ task with timer, busyUntil }, lines)

end ScheduleTask
end ScriptHost
