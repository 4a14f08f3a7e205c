import ScriptHost.Proofs.Project.Forgetting
import ScriptHost.Proofs.Schedule.Firings
import ScriptHost.Proofs.Schedule.Tasks
/-!
# Timer loops, followed one by one

A timer that was set is a loop of its own. It goes on until it ends by itself or is cancelled,
whether or not the task that set it still has a handle of it. Here no loop is forgotten: a task
has the loop that it has a handle of and all that it once had, and every one that is not
cancelled fires when time goes on.

**What holds.** `LoopedTask.Orderly`: a loop that a task has no handle of is cancelled, and the
one that it has a handle of was planned after the timing that the task has now. `Accounts`: all
loops are there whose timers were set.

**Results.**
* `LoopedTask.kind_forgets`, `LoopedTask.forget_runTo`: if only the timer behind the handle is
  remembered, that is how tasks live.
* `LoopedTask.Sound.start`, `Sound.terminate`, `Orderly.update`, `Orderly.runTo`: what every
  operation keeps.
* `LoopedTask.Orderly.one_current`: what that says of the loops of a task.
* `LoopedTask.accounts_start` and its like: no operation loses a loop.
-/
namespace ScriptHost

/-- A firing that took place, and the timing that its task had then. -/
structure LoopFiring where
  moment : Nat
  timing : Timing

/-- A timer that was set. -/
structure TimerLoop where
  spec : TimerSpec
  /-- The moment when it was set. -/
  since : Nat
  /-- What is left of it. -/
  timer : Timer
  cancelled : Bool := false
  fired : List LoopFiring := []

namespace TimerLoop

/-- The firings of a loop up to a moment, for a task. -/
def firings (loop : TimerLoop) (task : ScheduleTask) (clock : WallClock) (moment : Nat) :
    List Firing :=
  if loop.cancelled then []
  else (loop.timer.runTo (task.timing.firing clock task.overAt) moment []).1

def runTo (loop : TimerLoop) (task : ScheduleTask) (clock : WallClock) (moment : Nat) : TimerLoop :=
  if loop.cancelled then loop
  else
    { loop with
      timer := (loop.timer.runTo (task.timing.firing clock task.overAt) moment []).2
      fired := loop.fired ++ (loop.firings task clock moment).map fun f => ⟨f.start, task.timing⟩ }

/-- No firing of a loop started at or past the end that was in force. -/
def Timely (clock : WallClock) (loop : TimerLoop) : Prop :=
  ∀ f ∈ loop.fired, f.timing.isExpired (clock.read f.moment) = false

theorem Timely.runTo {clock : WallClock} {loop : TimerLoop} (h : loop.Timely clock)
    (task : ScheduleTask) (moment : Nat) : (loop.runTo task clock moment).Timely clock := by
  unfold TimerLoop.runTo
  by_cases cancelled : loop.cancelled
  · simp only [cancelled, if_true]
    exact h
  · simp only [cancelled, Bool.false_eq_true, if_false]
    intro f mem
    rcases List.mem_append.1 mem with mem | mem
    · exact h f mem
    · obtain ⟨g, there, rfl⟩ := List.mem_map.1 mem
      rw [firings, if_neg cancelled] at there
      exact Timing.firing_valid moment loop.timer (by simp) g there

end TimerLoop

/-- A task with all loops that it ever set. The timer of the task itself counts for nothing. -/
structure LoopedTask where
  task : ScheduleTask
  /-- The loop that it has a handle of. -/
  running : Option TimerLoop := none
  /-- Those that it once had a handle of. -/
  dropped : List TimerLoop := []

namespace LoopedTask

def loops (t : LoopedTask) : List TimerLoop := t.running.toList ++ t.dropped

/-- The task with the timer of the loop that it has a handle of. -/
def forget (t : LoopedTask) : ScheduleTask :=
  { t.task with timer := t.running.elim .ended (·.timer) }

/-- Takes the handle, if there is one, and cancels the loop. -/
def terminate (t : LoopedTask) : LoopedTask :=
  match t.running with
  | none => t
  | some loop =>
    { t with running := none, dropped := { loop with cancelled := true } :: t.dropped }

/-- Sets a timer and keeps its handle in place of another. That alone cancels nothing. -/
def submit (t : LoopedTask) (spec : TimerSpec) (now : Nat) : LoopedTask :=
  { t with running := some { spec, since := now, timer := spec.set now }, dropped := t.loops }

def start (t : LoopedTask) (env : ScheduleEnvironment) : LoopedTask × ScheduleEnvironment :=
  let t := t.terminate
  match t.task.nextTimer? env.wallTime with
  | none => (t, env)
  | some spec => (t.submit spec env.now, { env with timersSet := env.timersSet ++ [spec] })

def startIfActive (t : LoopedTask) (env : ScheduleEnvironment) :
    LoopedTask × ScheduleEnvironment :=
  if env.active then t.start env else (t, env)

def update (t : LoopedTask) (entry : ConfigEntry) (env : ScheduleEnvironment) :
    LoopedTask × ScheduleEnvironment :=
  let (task, _, changes) := t.task.update entry env
  let t := { t with task }
  if changes.restart then t.start env else (t, env)

/-- Moves all loops on to a moment; what their firings until then print. -/
def runTo (t : LoopedTask) (clock : WallClock) (moment : Nat) : LoopedTask × List TimedLine :=
  let (lines, busyUntil) := t.task.played (t.loops.flatMap (·.firings t.task clock moment))
  ({ task := { t.task with busyUntil }
     running := t.running.map (·.runTo t.task clock moment)
     dropped := t.dropped.map (·.runTo t.task clock moment) }, lines)

/-- Moves a task on and shows what it prints. -/
def announce (moment : Nat) (t : LoopedTask) (env : ScheduleEnvironment) :
    LoopedTask × ScheduleEnvironment :=
  let (t, lines) := t.runTo env.clock moment
  (t, { env with screen := env.screen.announce lines })

/-- What followed tasks share: besides, the loops of tasks that were retired. -/
abbrev Surroundings := ScheduleEnvironment × List TimerLoop

/-- An operation on a task that no retired one has to do with. -/
def aside (f : LoopedTask → ScheduleEnvironment → LoopedTask × ScheduleEnvironment) (t : LoopedTask)
    (s : Surroundings) : LoopedTask × Surroundings :=
  let (t, env) := f t s.1
  (t, env, s.2)

/-- How tasks live when their loops are followed. -/
def kind : EntityKind Surroundings LoopedTask where
  create id entry s :=
    match ScheduleTask.create s.1 id entry with
    | .ok task => (some { task }, s)
    | .error _ => (none, s)
  update t entry := aside (fun t env => t.update entry env) t
  retire t s := (s.1, t.terminate.loops ++ s.2)
  activate := aside startIfActive
  loadedEach := aside startIfActive

/-! ## What is forgotten -/

section Forgetting

variable {t : LoopedTask} {env : ScheduleEnvironment} {clock : WallClock}

@[simp] theorem task_terminate (t : LoopedTask) : t.terminate.task = t.task := by
  unfold terminate
  split <;> rfl

@[simp] theorem running_terminate (t : LoopedTask) : t.terminate.running = none := by
  unfold terminate
  split
  · assumption
  · rfl

theorem forget_terminate (t : LoopedTask) : t.terminate.forget = t.forget.terminate := by
  simp [forget, ScheduleTask.terminate]

theorem forget_start (t : LoopedTask) (env : ScheduleEnvironment) :
    t.forget.start env = ((t.start env).1.forget, (t.start env).2) := by
  have same : t.forget.nextTimer? env.wallTime = t.task.nextTimer? env.wallTime := rfl
  rw [ScheduleTask.start_eq, ScheduleTask.started, start, task_terminate, same]
  cases t.task.nextTimer? env.wallTime <;> simp [forget, submit]

theorem forget_startIfActive (t : LoopedTask) (env : ScheduleEnvironment) :
    t.forget.startIfActive env = ((t.startIfActive env).1.forget, (t.startIfActive env).2) := by
  unfold startIfActive ScheduleTask.startIfActive
  split
  · exact forget_start t env
  · rfl

theorem forget_update (t : LoopedTask) (entry : ConfigEntry) (env : ScheduleEnvironment) :
    t.forget.update entry env = ((t.update entry env).1.forget, (t.update entry env).2,
      (t.task.update entry env).2.2) := by
  unfold update
  cases read : ScheduleConfig.ofEntry t.task.id entry with
  | error problem =>
    have read' : ScheduleConfig.ofEntry t.forget.id entry = .error problem := read
    rw [ScheduleTask.update_of_error read, ScheduleTask.update_of_error read']
    rfl
  | ok config =>
    have read' : ScheduleConfig.ofEntry t.forget.id entry = .ok config := read
    rw [ScheduleTask.update_of_ok read, ScheduleTask.update_of_ok read']
    have given : ({ t with task := ((t.task.given entry config env.engine).start env).1 } :
        LoopedTask).forget = t.forget.given entry config env.engine := by
      rw [ScheduleTask.start_eq]
      rfl
    have same : t.forget.entry = t.task.entry := rfl
    simp only [same]
    split
    · simp only [← given, forget_start]
    · rfl

/-- If only the timer behind the handle is remembered, these are how tasks live. -/
theorem kind_forgets : kind.Forgets ScheduleTask.kind Prod.fst forget where
  create id entry s := by
    simp only [kind, ScheduleTask.kind]
    cases created : ScheduleTask.create s.1 id entry with
    | error problem => rfl
    | ok task =>
      obtain ⟨-, -, ended⟩ := ScheduleTask.create_settled created
      simp only [Option.map_some, forget, Option.elim_none, ← ended]
  update t entry s := by
    simp only [kind, aside, ScheduleTask.kind, forget_update]
  retire t s := rfl
  activate t s := forget_startIfActive t s.1
  loaded ids s := rfl
  loadedEach t s := forget_startIfActive t s.1

end Forgetting

/-! ## What holds of the loops -/

/-- A loop without a handle is cancelled, one with a handle is not, and no firing started at or
past the end that was in force. -/
structure Sound (clock : WallClock) (t : LoopedTask) : Prop where
  decoded : ScheduleConfig.ofEntry t.task.id t.task.entry = .ok t.task.config
  timed : t.task.resolved = t.task.config.resolve t.task.dateFormat
  dropped : ∀ loop ∈ t.dropped, loop.cancelled = true
  running : ∀ loop, t.running = some loop → loop.cancelled = false
  timely : ∀ loop ∈ t.loops, loop.Timely clock

/-- Besides, the loop with a handle was planned after the timing that the task has now. -/
structure Orderly (clock : WallClock) (t : LoopedTask) : Prop extends t.Sound clock where
  current : ∀ loop, t.running = some loop →
    t.task.nextTimer? (clock.read loop.since) = some loop.spec

section Orderly

variable {t : LoopedTask} {env : ScheduleEnvironment} {clock : WallClock}

theorem Orderly.unset {dateFormat id : String} {task : ScheduleTask}
    (settled : ScheduleTask.Settled dateFormat id task) (clock : WallClock) :
    ({ task } : LoopedTask).Orderly clock := by
  refine ⟨⟨?_, ?_, by simp, by simp, by simp [loops]⟩, by simp⟩
  · rw [settled.named]
    exact settled.decoded
  · rw [settled.pattern]
    exact settled.timed

theorem loops_terminate (t : LoopedTask) : t.terminate.loops = t.terminate.dropped := by
  simp [loops]

/-- All loops of a task that was retired, or is about to start anew, are cancelled. -/
theorem Sound.terminate (h : t.Sound clock) : t.terminate.Orderly clock := by
  unfold LoopedTask.terminate
  split
  · next none =>
    exact ⟨h, fun loop running => by rw [none] at running; cases running⟩
  · next loop running =>
    have timely : loop.Timely clock ∧ ∀ other ∈ t.dropped, other.Timely clock := by
      simpa [loops, running] using h.timely
    refine ⟨⟨h.decoded, h.timed, ?_, by simp, ?_⟩, by simp⟩
    · exact List.forall_mem_cons.2 ⟨rfl, h.dropped⟩
    · exact List.forall_mem_cons.2 timely

theorem Sound.start (h : t.Sound clock) (same : env.clock = clock) :
    (t.start env).1.Orderly clock := by
  have ended := h.terminate
  unfold LoopedTask.start
  simp only
  split
  · exact ended
  · next spec next =>
    refine ⟨⟨ended.decoded, ended.timed, ?_, ?_, ?_⟩, ?_⟩
    · show ∀ loop ∈ t.terminate.loops, loop.cancelled = true
      rw [loops_terminate]
      exact ended.dropped
    · intro loop running
      cases running
      rfl
    · show ∀ loop ∈ _ :: t.terminate.loops, loop.Timely clock
      exact List.forall_mem_cons.2 ⟨by simp [TimerLoop.Timely], ended.timely⟩
    · intro loop running
      cases running
      rw [← same]
      exact next

theorem Orderly.startIfActive (h : t.Orderly clock) (same : env.clock = clock) :
    (t.startIfActive env).1.Orderly clock := by
  unfold LoopedTask.startIfActive
  split
  · exact h.toSound.start same
  · exact h

/-- A task starts anew whenever its timing becomes another one, so its loop is always that of the
timing it has. -/
theorem Orderly.update (h : t.Orderly clock) (same : env.clock = clock) (entry : ConfigEntry) :
    (t.update entry env).1.Orderly clock := by
  unfold LoopedTask.update
  cases read : ScheduleConfig.ofEntry t.task.id entry with
  | error problem =>
    rw [ScheduleTask.update_of_error read]
    exact h
  | ok config =>
    rw [ScheduleTask.update_of_ok read]
    simp only [ScheduleTask.start_eq]
    split
    · refine Sound.start ⟨?_, ?_, h.dropped, h.running, h.timely⟩ same
      · exact read
      · rfl
    · next kept =>
      have timed : (t.task.given entry config env.engine).resolved = t.task.resolved :=
        ScheduleTask.resolved_given h.decoded h.timed read (by simpa using kept)
      refine ⟨⟨read, rfl, h.dropped, h.running, h.timely⟩, fun loop running => ?_⟩
      rw [← h.current loop running]
      simp only [ScheduleTask.nextTimer?, ScheduleTask.timing, timed]

theorem clock_start (t : LoopedTask) (env : ScheduleEnvironment) :
    (t.start env).2.clock = env.clock := by
  have continues := t.forget.continues_start env
  rw [forget_start] at continues
  exact continues.clock

theorem clock_startIfActive (t : LoopedTask) (env : ScheduleEnvironment) :
    (t.startIfActive env).2.clock = env.clock := by
  have continues := t.forget.continues_startIfActive env
  rw [forget_startIfActive] at continues
  exact continues.clock

theorem clock_update (t : LoopedTask) (entry : ConfigEntry) (env : ScheduleEnvironment) :
    (t.update entry env).2.clock = env.clock := by
  have continues := t.forget.continues_update entry env
  rw [forget_update] at continues
  exact continues.clock

@[simp] theorem cancelled_runTo (loop : TimerLoop) (task : ScheduleTask) (moment : Nat) :
    (loop.runTo task clock moment).cancelled = loop.cancelled := by
  unfold TimerLoop.runTo
  split <;> rfl

theorem loops_runTo (t : LoopedTask) (moment : Nat) :
    (t.runTo clock moment).1.loops = t.loops.map (·.runTo t.task clock moment) := by
  simp only [loops, runTo, List.map_append]
  cases t.running <;> rfl

theorem Orderly.runTo (h : t.Orderly clock) (moment : Nat) :
    (t.runTo clock moment).1.Orderly clock := by
  refine ⟨⟨h.decoded, h.timed, ?_, ?_, ?_⟩, ?_⟩
  · exact List.forall_mem_map.2 fun loop mem => by simp [h.dropped loop mem]
  · intro loop found
    obtain ⟨before, running, rfl⟩ := Option.map_eq_some_iff.1 found
    simp [h.running before running]
  · rw [loops_runTo]
    exact List.forall_mem_map.2 fun loop mem => (h.timely loop mem).runTo t.task moment
  · intro loop found
    obtain ⟨before, running, rfl⟩ := Option.map_eq_some_iff.1 found
    have uncancelled := h.running before running
    simp only [TimerLoop.runTo, uncancelled]
    exact h.current before running

/-- Only the loop with a handle is left to fire. -/
theorem forget_runTo (h : t.Sound clock) (clock' : WallClock) (moment : Nat) :
    t.forget.runTo clock' moment =
      ((t.runTo clock' moment).1.forget, (t.runTo clock' moment).2) := by
  have rest : t.dropped.flatMap (·.firings t.task clock' moment) = [] := by
    rw [List.flatMap_eq_nil_iff]
    intro loop mem
    simp [TimerLoop.firings, h.dropped loop mem]
  rw [ScheduleTask.runTo_eq]
  unfold LoopedTask.runTo
  simp only [loops, List.flatMap_append, rest, List.append_nil]
  cases running : t.running with
  | none =>
    simp only [forget, running]
    rfl
  | some loop =>
    have uncancelled := h.running loop running
    simp only [forget, running, Option.map_some, Option.elim_some, Option.toList_some,
      List.flatMap_singleton, TimerLoop.runTo, TimerLoop.firings, uncancelled]
    rfl

end Orderly

/-! ## What that says -/

end LoopedTask

/-- The plan that a timer is set after. -/
def TimerSpec.plan (spec : TimerSpec) : FirePlan :=
  match spec.period with
  | none => .once spec.delay
  | some period => .periodic spec.delay period

/-- No timer may be set after a timing, whatever the time of the day. -/
def ResolvedTiming.Invalid (resolved : ResolvedTiming) : Prop :=
  resolved.problem.isSome = true ∨
    0 < resolved.timing.period ∧ resolved.timing.start = Instant.unset

theorem ScheduleTask.nextTimer?_eq_some {task : ScheduleTask} {now : Int} {spec : TimerSpec} :
    task.nextTimer? now = some spec ↔ task.resolved.problem = none ∧
      spec.async = task.timing.async ∧ plan now task.timing = .ok spec.plan := by
  obtain ⟨async, delay, period⟩ := spec
  unfold ScheduleTask.nextTimer? TimerSpec.plan
  cases task.resolved.problem with
  | some problem => simp
  | none =>
    rcases planned : ScriptHost.plan now task.timing with problem | ⟨_ | _ | _⟩ <;>
      cases period <;> simp [eq_comm]

theorem ScheduleTask.nextTimer?_of_invalid {task : ScheduleTask} (invalid : task.resolved.Invalid)
    (now : Int) : task.nextTimer? now = none := by
  refine Option.eq_none_iff_forall_ne_some.2 fun spec next => ?_
  obtain ⟨fine, -, planned⟩ := nextTimer?_eq_some.1 next
  rcases invalid with problem | unset
  · rw [fine] at problem
    cases problem
  · have unset : 0 < task.timing.period ∧ task.timing.start = Instant.unset := unset
    unfold plan at planned
    rw [if_pos unset] at planned
    split at planned
    · unfold TimerSpec.plan at planned
      split at planned <;> cases planned
    · cases planned

namespace LoopedTask

/-- Of the loops of a task one at most is not cancelled; that was planned after the timing that
the task has now. -/
theorem Orderly.one_current {clock : WallClock} {t : LoopedTask} (h : t.Orderly clock) :
    (t.loops.filter (!·.cancelled)).length ≤ 1 ∧
      ∀ loop ∈ t.loops, loop.cancelled = false →
        t.task.nextTimer? (clock.read loop.since) = some loop.spec := by
  have past : t.dropped.filter (!·.cancelled) = [] := by
    rw [List.filter_eq_nil_iff]
    intro loop mem
    simp [h.dropped loop mem]
  constructor
  · rw [loops, List.filter_append, past, List.append_nil]
    refine Nat.le_trans (List.length_filter_le ..) ?_
    cases t.running <;> simp
  · intro loop mem uncancelled
    rcases List.mem_append.1 mem with mem | mem
    · exact h.current loop (by simpa using mem)
    · rw [h.dropped loop mem] at uncancelled
      cases uncancelled

/-! ## No loop is lost -/

/-- From one place to another, every loop stays or one of a timer comes that was just set. -/
def Accounts (before : List TimerLoop) (s : Surroundings) (after : List TimerLoop)
    (s' : Surroundings) : Prop :=
  ((after ++ s'.2).map (·.spec) ++ s.1.timersSet).Perm
    ((before ++ s.2).map (·.spec) ++ s'.1.timersSet)

section Accounts

variable {before middle after rest : List TimerLoop} {s s' s'' : Surroundings}

theorem Accounts.iff_count : Accounts before s after s' ↔ ∀ spec,
    (after.map (·.spec)).count spec + (s'.2.map (·.spec)).count spec + s.1.timersSet.count spec =
      (before.map (·.spec)).count spec + (s.2.map (·.spec)).count spec +
        s'.1.timersSet.count spec := by
  simp only [Accounts, List.perm_iff_count, List.map_append, List.count_append]

theorem Accounts.refl (loops : List TimerLoop) (s : Surroundings) : Accounts loops s loops s :=
  List.Perm.refl _

theorem Accounts.trans (h : Accounts before s middle s') (h' : Accounts middle s' after s'') :
    Accounts before s after s'' := by
  rw [iff_count] at *
  intro spec
  have first := h spec
  have second := h' spec
  omega

theorem Accounts.append (h : Accounts before s after s') (rest : List TimerLoop) :
    Accounts (before ++ rest) s (after ++ rest) s' := by
  rw [iff_count] at *
  intro spec
  have same := h spec
  simp only [List.map_append, List.count_append]
  omega

theorem Accounts.congr {before' after' : List TimerLoop} (h : Accounts before s after s')
    (first : before'.Perm before) (second : after'.Perm after) : Accounts before' s after' s' := by
  rw [iff_count] at *
  intro spec
  rw [(first.map _).count_eq, (second.map _).count_eq]
  exact h spec

theorem specs_terminate (t : LoopedTask) :
    t.terminate.loops.map (·.spec) = t.loops.map (·.spec) := by
  unfold terminate
  split
  · rfl
  · next loop running => simp [loops, running]

theorem accounts_terminate (t : LoopedTask) (s : Surroundings) :
    Accounts t.loops s t.terminate.loops s := by
  rw [Accounts, List.map_append, specs_terminate, ← List.map_append]

theorem accounts_retire (t : LoopedTask) (s : Surroundings) :
    Accounts t.loops s [] (kind.retire t s) := by
  show ((t.terminate.loops ++ s.2).map (·.spec) ++ s.1.timersSet).Perm
    ((t.loops ++ s.2).map (·.spec) ++ s.1.timersSet)
  rw [List.map_append, specs_terminate, ← List.map_append]

theorem accounts_start (t : LoopedTask) (s : Surroundings) :
    Accounts t.loops s (aside start t s).1.loops (aside start t s).2 := by
  refine (accounts_terminate t s).trans ?_
  unfold aside start
  simp only
  split
  · exact .refl _ s
  · next spec next =>
    rw [Accounts.iff_count]
    intro other
    show (spec :: t.terminate.loops.map (·.spec)).count other + (s.2.map (·.spec)).count other +
        s.1.timersSet.count other =
      (t.terminate.loops.map (·.spec)).count other + (s.2.map (·.spec)).count other +
        (s.1.timersSet ++ [spec]).count other
    rw [List.count_append, List.count_cons, List.count_singleton]
    omega

theorem accounts_startIfActive (t : LoopedTask) (s : Surroundings) :
    Accounts t.loops s (aside startIfActive t s).1.loops (aside startIfActive t s).2 := by
  by_cases active : s.1.active
  · simp only [aside, startIfActive, active, if_true]
    exact accounts_start t s
  · simp only [aside, startIfActive, active]
    exact .refl t.loops s

theorem accounts_update (t : LoopedTask) (entry : ConfigEntry) (s : Surroundings) :
    Accounts t.loops s (kind.update t entry s).1.loops (kind.update t entry s).2 := by
  simp only [kind, aside, update]
  split
  · exact accounts_start { t with task := (t.task.update entry s.1).1 } s
  · exact .refl _ s

theorem accounts_runTo (t : LoopedTask) (clock : WallClock) (moment : Nat) (s : Surroundings)
    (screen : Screen) :
    Accounts t.loops s (t.runTo clock moment).1.loops ({ s.1 with screen }, s.2) := by
  have same (loop : TimerLoop) : (loop.runTo t.task clock moment).spec = loop.spec := by
    unfold TimerLoop.runTo
    split <;> rfl
  rw [Accounts, loops_runTo, List.map_append, List.map_map]
  simp only [Function.comp_def, same, ← List.map_append]
  exact .refl _

end Accounts

end LoopedTask
end ScriptHost
