import ScriptHost.Schedule.Task
/-!
# The firings of a timer

A job is told when its timer fires and decides whether the firing takes place. What is seen of a
timer that runs on to some moment is therefore a list of firings, each with the moment when its
work is over.

**Results.**
* `WaitingTimer.runTo_of_le`, `WaitingTimer.runTo_of_lt`: a timer is run on by one firing, or not
  at all.
* `WaitingTimer.induction`: what holds of timers that wait for longer than some moment, and goes
  from the timer after a firing back to the one before it, holds of all.
* `Timer.runTo_hom`, `Timer.runTo_runTo`: running on does not depend on what the job remembers,
  nor on where one stops in between.
* `Timing.firing_valid`: no firing takes place at or past the end.
* `ScheduleTask.runTo_eq`: what a task prints is what its firings print.
-/
namespace ScriptHost

section

variable {σ τ : Type} {job : TimerJob σ}

namespace WaitingTimer

theorem runTo_of_lt {moment : Nat} {timer : WaitingTimer} (late : moment < timer.wake) (state : σ) :
    timer.runTo job moment state = (state, .waiting timer) := by
  rw [runTo, if_neg (Nat.not_le.2 late)]

/-- A timer that fires is run on from there. -/
theorem runTo_of_le {moment : Nat} {timer : WaitingTimer} (early : timer.wake ≤ moment)
    (state : σ) :
    timer.runTo job moment state =
      (timer.fire job state).2.runTo job moment (timer.fire job state).1 := by
  rw [runTo, if_pos early]
  rcases fired : timer.fire job state with ⟨after, next | stop | _⟩ <;> rfl

/-- Every firing is due after the one before it, so the firings up to a moment come to an end. -/
theorem induction {motive : WaitingTimer → σ → Prop} (job : TimerJob σ) (moment : Nat)
    (late : ∀ timer state, moment < timer.wake → motive timer state)
    (early : ∀ timer state, timer.wake ≤ moment →
      (∀ next, (timer.fire job state).2 = .waiting next →
        motive next (timer.fire job state).1) → motive timer state) :
    ∀ timer state, motive timer state := by
  have bounded : ∀ (n : Nat) (timer : WaitingTimer) (state : σ), moment + 1 - timer.due ≤ n →
      motive timer state := by
    intro n
    induction n with
    | zero =>
      intro timer state left
      have := timer.due_le_wake
      exact late timer state (by omega)
    | succ n ih =>
      intro timer state left
      by_cases h : moment < timer.wake
      · exact late timer state h
      · refine early timer state (by omega) fun next fired => ih next _ ?_
        have made : timer.fire job state = ((timer.fire job state).1, .waiting next) :=
          Prod.ext rfl fired
        have later := due_lt_of_fire made
        have := timer.due_le_wake
        omega
  exact fun timer state => bounded _ timer state (Nat.le_refl _)

/-- A job that remembers something else, but decides the same, fires the same. -/
theorem fire_hom {job' : TimerJob τ} {f : σ → τ}
    (same : ∀ t state, job' t (f state) = (f (job t state).1, (job t state).2))
    (timer : WaitingTimer) (state : σ) :
    timer.fire job' (f state) = (f (timer.fire job state).1, (timer.fire job state).2) := by
  unfold fire
  by_cases empty : timer.period = some 0
  · simp only [empty, if_true]
  · simp only [empty, if_false, same]
    rcases job timer.wake state with ⟨after, _ | stop⟩
    · rfl
    · cases timer.period <;> rfl

end WaitingTimer

namespace Timer

theorem runTo_hom {job' : TimerJob τ} {f : σ → τ}
    (same : ∀ t state, job' t (f state) = (f (job t state).1, (job t state).2))
    (moment : Nat) (timer : Timer) (state : σ) :
    timer.runTo job' moment (f state) =
      (f (timer.runTo job moment state).1, (timer.runTo job moment state).2) := by
  cases timer with
  | closing stop => rfl
  | ended => rfl
  | waiting timer =>
    refine WaitingTimer.induction (motive := fun timer state => timer.runTo job' moment (f state) =
      (f (timer.runTo job moment state).1, (timer.runTo job moment state).2)) job moment ?_ ?_
      timer state
    · intro timer state late
      rw [WaitingTimer.runTo_of_lt late, WaitingTimer.runTo_of_lt late]
    · intro timer state early ih
      rw [WaitingTimer.runTo_of_le early, WaitingTimer.runTo_of_le early,
        WaitingTimer.fire_hom same]
      cases fired : (timer.fire job state).2 with
      | waiting next => exact ih next fired
      | closing stop => rfl
      | ended => rfl

theorem runTo_runTo {earlier moment : Nat} (le : earlier ≤ moment) (timer : Timer) (state : σ) :
    (timer.runTo job earlier state).2.runTo job moment (timer.runTo job earlier state).1 =
      timer.runTo job moment state := by
  cases timer with
  | closing stop => rfl
  | ended => rfl
  | waiting timer =>
    refine WaitingTimer.induction (motive := fun timer state =>
      (timer.runTo job earlier state).2.runTo job moment (timer.runTo job earlier state).1 =
        timer.runTo job moment state) job earlier ?_ ?_ timer state
    · intro timer state late
      rw [WaitingTimer.runTo_of_lt late]
      rfl
    · intro timer state early ih
      rw [WaitingTimer.runTo_of_le early,
        WaitingTimer.runTo_of_le (Nat.le_trans early le)]
      cases fired : (timer.fire job state).2 with
      | waiting next => exact ih next fired
      | closing stop => rfl
      | ended => rfl

end Timer
end

/-! ## Writing firings down -/

/-- A firing that took place. -/
structure Firing where
  start : Nat
  /-- The moment when its work is over. -/
  stop : Nat
  deriving DecidableEq, Repr

/-- The job of a timer that fires until its timing has expired, where the work of a firing takes
as long as it takes; the firings are written down. -/
def Timing.firing (timing : Timing) (clock : WallClock) (stop : Nat → Nat) :
    TimerJob (List Firing) := fun moment fired =>
  if timing.isExpired (clock.read moment) then (fired, none)
  else (fired ++ [⟨moment, stop moment⟩], some (stop moment))

theorem Timing.firing_valid {timing : Timing} {clock : WallClock} {stop : Nat → Nat} (moment : Nat)
    (timer : Timer) {fired : List Firing}
    (valid : ∀ f ∈ fired, timing.isExpired (clock.read f.start) = false) :
    ∀ f ∈ (timer.runTo (timing.firing clock stop) moment fired).1,
      timing.isExpired (clock.read f.start) = false := by
  cases timer with
  | closing stop => exact valid
  | ended => exact valid
  | waiting timer =>
    revert valid
    refine WaitingTimer.induction (motive := fun timer fired =>
      (∀ f ∈ fired, timing.isExpired (clock.read f.start) = false) →
        ∀ f ∈ (timer.runTo (timing.firing clock stop) moment fired).1,
          timing.isExpired (clock.read f.start) = false)
      (timing.firing clock stop) moment ?_ ?_ timer fired
    · intro timer fired late valid
      rw [WaitingTimer.runTo_of_lt late]
      exact valid
    · intro timer fired early ih valid
      have more : ∀ f ∈ (timer.fire (timing.firing clock stop) fired).1,
          timing.isExpired (clock.read f.start) = false := by
        unfold WaitingTimer.fire Timing.firing
        split
        · exact valid
        · cases expired : timing.isExpired (clock.read timer.wake) with
          | true => exact valid
          | false =>
            have added : ∀ f ∈ fired ++ [(⟨timer.wake, stop timer.wake⟩ : Firing)],
                timing.isExpired (clock.read f.start) = false := by
              intro f mem
              rcases List.mem_append.1 mem with mem | mem
              · exact valid f mem
              · rw [List.mem_singleton.1 mem]
                exact expired
            cases timer.period <;> exact added
      rw [WaitingTimer.runTo_of_le early]
      cases rest : (timer.fire (timing.firing clock stop) fired).2 with
      | waiting next => exact ih next rest more
      | closing stop => exact more
      | ended => exact more

namespace ScheduleTask

variable (task : ScheduleTask) (clock : WallClock)

/-- When the script of a task is over that is run at a moment. -/
def overAt (moment : Nat) : Nat := (Output.play moment task.output.toList).2

/-- What some firings of a task print, and when all are over. -/
def played (fired : List Firing) : List TimedLine × Nat :=
  (fired.flatMap fun f => (Output.play f.start task.output.toList).1,
    fired.foldl (fun busy f => max busy f.stop) task.busyUntil)

def firings (moment : Nat) : List Firing :=
  (task.timer.runTo (task.timing.firing clock task.overAt) moment []).1

/-- What becomes of a task, and what it prints, is told by its firings. -/
theorem runTo_eq (moment : Nat) : task.runTo clock moment =
    ({ task with
        timer := (task.timer.runTo (task.timing.firing clock task.overAt) moment []).2
        busyUntil := (task.played (task.firings clock moment)).2 },
      (task.played (task.firings clock moment)).1) := by
  have same (t : Nat) (fired : List Firing) :
      task.job clock t (task.played fired) =
        (task.played (task.timing.firing clock task.overAt t fired).1,
          (task.timing.firing clock task.overAt t fired).2) := by
    by_cases expired : task.timing.isExpired (clock.read t)
    · simp only [job, Timing.firing, expired, if_true]
    · simp [job, Timing.firing, expired, played, overAt]
  have all := Timer.runTo_hom same moment task.timer []
  unfold runTo
  rw [show (([], task.busyUntil) : List TimedLine × Nat) = task.played [] from rfl, all]
  rfl

end ScheduleTask
end ScriptHost
