import Mathlib.Order.Bounds.Basic
import Mathlib.Tactic.Ring
import ScriptHost.Proofs.Schedule.Firings
import ScriptHost.Proofs.Schedule.Tasks
/-!
# Firings on a grid

A task with a period fires on the grid of its start and period. Each firing is due at the least
point of the grid after the one before it took place; one that waits for the work of the one
before it takes place when that is over, if that is later. So points of the grid may be missed,
but none is made up for, no point has two firings, and the grid does not drift.

The planner counts from the start in the time of the day, the timer from its last firing in time
passed, and takes a firing that is late by no more than the tolerance as one in time. These agree
as long as the tolerance is less than the period.

**What is said.** `Timing.Next`: the moment of the next firing, given those so far.
`Timing.Fires`: firings that were each at that moment.

**Results.**
* `nextGridPoint_isLeast`, `nextDue_isLeast`: the planner and the timer find the next point of the
  grid.
* `plan_next`: what is planned is the first firing.
* `WaitingTimer.Awaits.step`: from one firing to the next.
* `ScheduleTask.firings_follow_the_grid`: a task that is started fires at the next moments, until
  one that is at or past its end.
-/
namespace ScriptHost

/-! ## Points of a grid -/

def Timing.gridAfter (timing : Timing) (now : Int) : Set Int :=
  {x | (∃ k : Nat, x = timing.start + k * timing.period) ∧ now < x}

section Grid

variable {timing : Timing} {now x : Int}

/-- A point is the next one if the point before it, if there is one, has been reached. -/
theorem isLeast_gridAfter {k : Nat} (point : x = timing.start + k * timing.period) (after : now < x)
    (before : k = 0 ∨ x - timing.period ≤ now) : IsLeast (timing.gridAfter now) x := by
  refine ⟨⟨⟨k, point⟩, after⟩, ?_⟩
  rintro y ⟨⟨l, rfl⟩, later⟩
  by_contra less
  have lt : l < k := by
    by_contra ge
    have : (k : Int) * timing.period ≤ l * timing.period :=
      Int.mul_le_mul_of_nonneg_right (by omega) (by omega)
    omega
  have step : ((l : Int) + 1) * timing.period ≤ k * timing.period :=
    Int.mul_le_mul_of_nonneg_right (by omega) (by omega)
  rw [Int.add_mul, Int.one_mul] at step
  omega

theorem nextGridPoint_isLeast (positive : 0 < timing.period) (started : timing.start ≤ now) :
    IsLeast (timing.gridAfter now) (nextGridPoint now timing.start timing.period) := by
  have below := Int.ediv_mul_le (now - timing.start) (b := timing.period) (by omega)
  have above := Int.lt_ediv_add_one_mul_self (now - timing.start) (b := timing.period) (by omega)
  have natural : 0 ≤ (now - timing.start) / timing.period := Int.ediv_nonneg (by omega) (by omega)
  unfold nextGridPoint
  generalize (now - timing.start) / timing.period = q at *
  refine isLeast_gridAfter (k := (q + 1).toNat) ?_ ?_ (.inr ?_)
  · rw [Int.toNat_of_nonneg (by omega)]
  · omega
  · rw [Int.add_mul] at above ⊢
    omega

/-- A firing that is late is followed by one at the next point of the grid. -/
theorem nextDue_isLeast {base : Int} {due wake : Nat} {k : Nat}
    (tolerant : WaitingTimer.tolerance < timing.period)
    (point : base + due = timing.start + k * timing.period) (late : due ≤ wake) :
    IsLeast (timing.gridAfter (base + wake))
      (base + (WaitingTimer.nextDue due wake timing.period : Nat)) := by
  unfold WaitingTimer.nextDue
  split
  · refine isLeast_gridAfter (k := k + 1) ?_ (by omega) (.inr (by omega))
    push_cast
    rw [Int.add_mul]
    omega
  · have missed := Nat.div_add_mod' (wake - due) timing.period
    have short := Nat.mod_lt (wake - due) (Nat.zero_lt_of_lt tolerant)
    generalize (wake - due) % timing.period = r at *
    generalize (wake - due) / timing.period = q at *
    refine isLeast_gridAfter (k := k + q + 1) ?_ (by omega) (.inr (by omega))
    have apart : ((k + q + 1 : Nat) : Int) * timing.period =
        k * timing.period + (q * timing.period : Nat) + timing.period := by
      push_cast
      ring
    omega

theorem exists_isLeast_gridAfter (positive : 0 < timing.period) (now : Int) :
    ∃ x, IsLeast (timing.gridAfter now) x := by
  by_cases h : now < timing.start
  · exact ⟨timing.start, isLeast_gridAfter (k := 0) (by simp) h (.inl rfl)⟩
  · exact ⟨_, nextGridPoint_isLeast positive (by omega)⟩

theorem Timing.isExpired_mono {later : Int} (h : timing.isExpired now) (le : now ≤ later) :
    timing.isExpired later := by
  unfold Timing.isExpired at *
  simp only [Bool.and_eq_true, bne_iff_ne, ne_eq, decide_eq_true_eq] at *
  exact ⟨h.1, by omega⟩

end Grid

/-! ## What is to happen -/

namespace Timing

/-- The moment of the next firing of a task that was started at the moment `set`, after those so
far. The moment 0 is at the instant `base`. -/
inductive Next (timing : Timing) (base : Int) (set : Nat) : List Firing → Nat → Prop where
  /-- Without a period there is one, at the start or, if that is unset or past, at once. -/
  | once {t : Nat} (single : timing.period = 0)
    (instant : base + t =
      if timing.start = Instant.unset then base + set else max timing.start (base + set)) :
    Next timing base set [] t
  /-- With a period the first is at the next point of the grid. -/
  | first {t : Nat} (periodic : 0 < timing.period)
    (instant : IsLeast (timing.gridAfter (base + set)) (base + t)) : Next timing base set [] t
  /-- So are the others, counted from the one before, which they wait for unless the timing is
  asynchronous. -/
  | again {fired : List Firing} {last : Firing} {point : Int} {t : Nat}
    (periodic : 0 < timing.period) (due : IsLeast (timing.gridAfter (base + last.start)) point)
    (instant : base + t = if timing.async then point else max point (base + last.stop)) :
    Next timing base set (fired ++ [last]) t

/-- Firings that were each at the moment of the next, not expired then, up to some moment. -/
inductive Fires (timing : Timing) (base : Int) (set : Nat) (stop : Nat → Nat) (moment : Nat) :
    List Firing → Prop where
  | none : Fires timing base set stop moment []
  | more {fired : List Firing} {t : Nat} (before : Fires timing base set stop moment fired)
    (next : timing.Next base set fired t) (reached : t ≤ moment)
    (valid : timing.isExpired (base + t) = false) :
    Fires timing base set stop moment (fired ++ [⟨t, stop t⟩])

/-- All firings up to a moment: the one that would be next is later, or the timing has expired by
then. After the one firing without a period there is no next. -/
structure FiresAll (timing : Timing) (base : Int) (set : Nat) (stop : Nat → Nat) (moment : Nat)
    (fired : List Firing) : Prop where
  fires : timing.Fires base set stop moment fired
  rest : (timing.period = 0 ∧ fired.length = 1) ∨
    ∃ t, (∀ u, timing.Next base set fired u ↔ u = t) ∧
      (moment < t ∨ timing.isExpired (base + t))

variable {timing : Timing} {base : Int} {set : Nat} {fired : List Firing} {t u : Nat}

theorem Next.unique (first : timing.Next base set fired t) (second : timing.Next base set fired u) :
    u = t := by
  generalize same : fired = other at second
  cases first with
  | once single instant =>
    cases second with
    | once single' instant' => omega
    | first periodic instant' => omega
    | again periodic due instant' => simp at same
  | first periodic instant =>
    cases second with
    | once single' instant' => omega
    | first periodic' instant' =>
      have := instant.unique instant'
      omega
    | again periodic due instant' => simp at same
  | again periodic due instant =>
    cases second with
    | once single' instant' => simp at same
    | first periodic' instant' => simp at same
    | again periodic' due' instant' =>
      obtain ⟨-, same⟩ := List.append_inj' same rfl
      obtain rfl := List.singleton_inj.1 same
      obtain rfl := due.unique due'
      omega

theorem Next.iff_eq (next : timing.Next base set fired t) (u : Nat) :
    timing.Next base set fired u ↔ u = t :=
  ⟨next.unique, fun same => same ▸ next⟩

/-- There is a first firing, and it is not before the task is started. -/
theorem exists_first (timing : Timing) (base : Int) (set : Nat) :
    ∃ t, timing.Next base set [] t ∧ set ≤ t := by
  by_cases single : timing.period = 0
  · by_cases unset : timing.start = Instant.unset
    · exact ⟨set, .once single (by rw [if_pos unset]), Nat.le_refl set⟩
    · refine ⟨(max timing.start (base + set) - base).toNat, .once single ?_, ?_⟩
      · rw [if_neg unset]
        omega
      · omega
  · obtain ⟨x, least⟩ := exists_isLeast_gridAfter (by omega : 0 < timing.period) (base + set)
    have later := least.1.2
    have instant : base + ((x - base).toNat : Int) = x := by omega
    exact ⟨(x - base).toNat, .first (by omega) (instant.symm ▸ least), by omega⟩

end Timing

/-! ## What is planned -/

/-- What a plan comes to: nothing if the timing has expired, and else the first firing. -/
theorem plan_next {timing : Timing} {now : Int} {planned : FirePlan}
    (h : plan now timing = .ok planned) :
    (planned = .expired ∧ timing.isExpired now) ∨
    (∃ delay : Nat, planned = .once delay ∧ timing.period = 0 ∧
      now + delay = if timing.start = Instant.unset then now else max timing.start now) ∨
    ∃ delay : Nat, planned = .periodic delay timing.period ∧ 0 < timing.period ∧
      IsLeast (timing.gridAfter now) (now + delay) := by
  unfold plan at h
  by_cases expired : timing.isExpired now
  · simp only [expired, if_true, Except.ok.injEq] at h
    exact .inl ⟨h.symm, expired⟩
  simp only [expired, Bool.false_eq_true, if_false] at h
  by_cases periodic : 0 < timing.period
  · simp only [periodic, true_and, if_true] at h
    by_cases unset : timing.start = Instant.unset
    · simp [unset] at h
    simp only [unset, if_false, ne_eq, not_false_eq_true, true_and] at h
    by_cases early : now < timing.start
    · simp only [early, if_true, Except.ok.injEq] at h
      have instant : now + ((timing.start - now).toNat : Int) = timing.start := by omega
      refine .inr (.inr ⟨_, h.symm, periodic, instant.symm ▸ ?_⟩)
      exact isLeast_gridAfter (k := 0) (by simp) early (.inl rfl)
    · have least := nextGridPoint_isLeast periodic (by omega : timing.start ≤ now)
      simp only [early, if_false] at h
      generalize nextGridPoint now timing.start timing.period = next at *
      split at h
      · have later := least.1.2
        have instant : now + ((next - now).toNat : Int) = next := by omega
        cases h
        exact .inr (.inr ⟨_, rfl, periodic, instant.symm ▸ least⟩)
      · cases h
  · simp only [periodic, false_and, if_false] at h
    refine .inr (.inl ?_)
    by_cases unset : timing.start = Instant.unset
    · simp only [unset, ne_eq, not_true_eq_false, false_and, if_false, Except.ok.injEq] at h
      exact ⟨0, h.symm, by omega, by simp [unset]⟩
    · simp only [unset, ne_eq, not_false_eq_true, true_and, if_false] at h ⊢
      split at h
      · cases h
        exact ⟨_, rfl, by omega, by omega⟩
      · cases h
        exact ⟨_, rfl, by omega, by omega⟩

/-! ## From one firing to the next -/

/-- A timer waits for the next firing of a timing. -/
structure WaitingTimer.Awaits (timing : Timing) (base : Int) (set : Nat) (fired : List Firing)
    (timer : WaitingTimer) : Prop where
  async : timer.async = timing.async
  period : timer.period = if timing.period = 0 then none else some timing.period
  next : timing.Next base set fired timer.wake
  /-- What is due is a point of the grid. -/
  point : 0 < timing.period → ∃ k : Nat, base + timer.due = timing.start + k * timing.period

section Running

variable {timing : Timing} {base : Int} {set : Nat} {fired : List Firing} {timer : WaitingTimer}
  {stop : Nat → Nat}

namespace WaitingTimer.Awaits

theorem fire_expired (h : timer.Awaits timing base set fired)
    (expired : timing.isExpired (base + timer.wake)) :
    timer.fire (timing.firing (.following base) stop) fired = (fired, .ended) := by
  have positive : timer.period ≠ some 0 := by
    rw [h.period]
    split <;> simp_all
  simp [fire, positive, Timing.firing, WallClock.read, expired]

/-- Without a period, nothing is waited for after the firing but its work. -/
theorem fire_once (h : timer.Awaits timing base set fired) (single : timing.period = 0)
    (valid : timing.isExpired (base + timer.wake) = false) :
    timer.fire (timing.firing (.following base) stop) fired =
      (fired ++ [⟨timer.wake, stop timer.wake⟩],
        if timer.async then .ended else .closing (stop timer.wake)) := by
  have none : timer.period = none := by rw [h.period, if_pos single]
  simp [fire, none, Timing.firing, WallClock.read, valid]

/-- With a period, the timer waits for the next firing then. -/
theorem fire_again (h : timer.Awaits timing base set fired)
    (tolerant : WaitingTimer.tolerance < timing.period)
    (valid : timing.isExpired (base + timer.wake) = false) :
    ∃ next, timer.fire (timing.firing (.following base) stop) fired =
        (fired ++ [⟨timer.wake, stop timer.wake⟩], .waiting next) ∧
      next.Awaits timing base set (fired ++ [⟨timer.wake, stop timer.wake⟩]) := by
  have positive : 0 < timing.period := Nat.zero_lt_of_lt tolerant
  have period : timer.period = some timing.period := by rw [h.period, if_neg (by omega)]
  obtain ⟨k, point⟩ := h.point positive
  have least := nextDue_isLeast tolerant point timer.due_le_wake
  have later := least.1.2
  obtain ⟨l, onGrid⟩ := least.1.1
  let next : WaitingTimer :=
    { async := timer.async
      period := timer.period
      due := nextDue timer.due timer.wake timing.period
      wake := max (if timer.async then timer.wake else stop timer.wake)
        (nextDue timer.due timer.wake timing.period)
      due_le_wake := Nat.le_max_right .. }
  refine ⟨next, ?_, h.async, h.period, ?_, fun _ => ⟨l, onGrid⟩⟩
  · simp [next, fire, period, Nat.ne_of_gt positive, Timing.firing, WallClock.read, valid]
  · refine .again positive least ?_
    simp only [next]
    rw [← h.async]
    cases timer.async
    · simp only [Bool.false_eq_true, if_false]
      omega
    · simp only [if_true]
      omega

theorem runTo (moment : Nat) (tolerant : timing.period = 0 ∨ WaitingTimer.tolerance < timing.period)
    (h : timer.Awaits timing base set fired) (fires : timing.Fires base set stop moment fired) :
    timing.FiresAll base set stop moment
      (timer.runTo (timing.firing (.following base) stop) moment fired).1 := by
  revert h fires
  refine WaitingTimer.induction (motive := fun timer fired => timer.Awaits timing base set fired →
    timing.Fires base set stop moment fired → timing.FiresAll base set stop moment
      (timer.runTo (timing.firing (.following base) stop) moment fired).1)
    (timing.firing (.following base) stop) moment ?_ ?_ timer fired
  · intro timer fired late h fires
    rw [runTo_of_lt late]
    exact ⟨fires, .inr ⟨timer.wake, h.next.iff_eq, .inl late⟩⟩
  · intro timer fired early ih h fires
    rw [runTo_of_le early]
    cases expired : timing.isExpired (base + timer.wake) with
    | true =>
      rw [h.fire_expired expired]
      exact ⟨fires, .inr ⟨timer.wake, h.next.iff_eq, .inr expired⟩⟩
    | false =>
      have more := fires.more h.next early expired
      rcases tolerant with single | tolerant
      · have only : fired = [] := by
          cases h.next with
          | once single instant => rfl
          | first periodic instant => rfl
          | again periodic due instant => omega
        rw [h.fire_once single expired]
        subst only
        split <;> exact ⟨more, .inl ⟨single, rfl⟩⟩
      · obtain ⟨next, fire, awaits⟩ := h.fire_again tolerant expired
        rw [fire] at ih ⊢
        exact ih next rfl awaits more

end WaitingTimer.Awaits
end Running

namespace ScheduleTask

variable {task : ScheduleTask} {env : ScheduleEnvironment} {base : Int} {planned : FirePlan}

/-- A task that is started waits for its first firing, unless its timing has expired. -/
theorem start_awaits (following : env.clock = .following base)
    (valid : task.resolved.problem = none) (plans : plan env.wallTime task.timing = .ok planned) :
    ((task.start env).1.timer = .ended ∧ task.timing.isExpired env.wallTime) ∨
      ∃ timer : WaitingTimer, (task.start env).1.timer = .waiting timer ∧
        timer.Awaits task.timing base env.now [] := by
  have instant : env.wallTime = base + env.now := by
    rw [ScheduleEnvironment.wallTime, following]
    rfl
  rw [start_eq, started, nextTimer?, valid, plans]
  rcases plan_next plans with ⟨rfl, expired⟩ | ⟨delay, rfl, single, first⟩ |
    ⟨delay, rfl, periodic, first⟩
  · exact .inl ⟨rfl, expired⟩
  · rw [instant] at first
    refine .inr ⟨_, rfl, rfl, ?_, .once single ?_, fun _ => by omega⟩
    · rw [if_pos single]
    · push_cast
      omega
  · rw [instant] at first
    obtain ⟨k, point⟩ := first.1.1
    have moment : base + ((env.now + delay : Nat) : Int) = base + env.now + delay := by omega
    refine .inr ⟨_, rfl, rfl, ?_, .first periodic ?_, fun _ => ⟨k, ?_⟩⟩
    · rw [if_neg (by omega)]
    · exact moment.symm ▸ first
    · exact moment.trans point

/-- Moving a task on prints the same, and leaves the same behind, if it is done in two steps. -/
theorem runTo_runTo (task : ScheduleTask) (clock : WallClock) {earlier moment : Nat}
    (le : earlier ≤ moment) :
    ((task.runTo clock earlier).1.runTo clock moment).1 = (task.runTo clock moment).1 ∧
      (task.runTo clock earlier).2 ++ ((task.runTo clock earlier).1.runTo clock moment).2 =
        (task.runTo clock moment).2 := by
  let shown (printed : List TimedLine) (state : List TimedLine × Nat) : List TimedLine × Nat :=
    (printed ++ state.1, state.2)
  have same (printed : List TimedLine) (t : Nat) (state : List TimedLine × Nat) :
      task.job clock t (shown printed state) =
        (shown printed (task.job clock t state).1, (task.job clock t state).2) := by
    by_cases expired : task.timing.isExpired (clock.read t) <;> simp [job, expired, shown]
  have whole := @Timer.runTo_runTo _ (task.job clock) _ _ le task.timer ([], task.busyUntil)
  rcases first : task.timer.runTo (task.job clock) earlier ([], task.busyUntil) with
    ⟨⟨printed, busy⟩, timer⟩
  have rest := Timer.runTo_hom (same printed) moment timer ([], busy)
  have middle : task.runTo clock earlier = ({ task with timer, busyUntil := busy }, printed) := by
    simp only [runTo, first]
  have start : (printed, busy) = shown printed ([], busy) := by simp [shown]
  rw [first, start, rest] at whole
  have later : ({ task with timer, busyUntil := busy } : ScheduleTask).runTo clock moment =
      ({ task with
          timer := (timer.runTo (task.job clock) moment ([], busy)).2
          busyUntil := (timer.runTo (task.job clock) moment ([], busy)).1.2 },
        (timer.runTo (task.job clock) moment ([], busy)).1.1) := rfl
  have together : task.runTo clock moment =
      ({ task with
          timer := (timer.runTo (task.job clock) moment ([], busy)).2
          busyUntil := (timer.runTo (task.job clock) moment ([], busy)).1.2 },
        printed ++ (timer.runTo (task.job clock) moment ([], busy)).1.1) := by
    simp only [runTo, ← whole, shown]
  rw [middle, later, together]
  exact ⟨rfl, rfl⟩

/-- A task that is started fires when it should: without a period once, at its start or at once,
and with one at the points of its grid, each firing at the first that comes after the one before
it, or when that is over if it is waited for and takes longer; until the next would be at or
past the end. That is so however long the firings take, and the task itself prints what its
firings print, no matter in how many steps time goes on. -/
theorem firings_follow_the_grid (following : env.clock = .following base)
    (valid : task.resolved.problem = none) (plans : plan env.wallTime task.timing = .ok planned)
    (tolerant : task.timing.period = 0 ∨ WaitingTimer.tolerance < task.timing.period) :
    let started := (task.start env).1
    (∀ stop moment, task.timing.FiresAll base env.now stop moment
      (started.timer.runTo (task.timing.firing env.clock stop) moment []).1) ∧
    ∀ moment, task.timing.FiresAll base env.now task.overAt moment
        (started.firings env.clock moment) ∧
      (started.runTo env.clock moment).2 = ((started.firings env.clock moment).flatMap fun f =>
        (Output.play f.start task.output.toList).1) ∧
      ∀ earlier ≤ moment,
        (started.runTo env.clock earlier).2 ++
          ((started.runTo env.clock earlier).1.runTo env.clock moment).2 =
            (started.runTo env.clock moment).2 := by
  intro started
  have all (stop : Nat → Nat) (moment : Nat) : task.timing.FiresAll base env.now stop moment
      (started.timer.runTo (task.timing.firing env.clock stop) moment []).1 := by
    rw [following]
    rcases start_awaits following valid plans with ⟨ended, expired⟩ | ⟨timer, waiting, awaits⟩
    · obtain ⟨t, next, later⟩ := Timing.exists_first task.timing base env.now
      rw [show started.timer = .ended from ended]
      refine ⟨.none, .inr ⟨t, next.iff_eq, .inr (Timing.isExpired_mono expired ?_)⟩⟩
      rw [ScheduleEnvironment.wallTime, following, WallClock.read]
      omega
    · rw [show started.timer = .waiting timer from waiting]
      exact awaits.runTo moment tolerant .none
  have same : started = { task with timer := started.timer } := by
    simp only [started, start_eq]
    rfl
  refine ⟨all, fun moment => ⟨?_, ?_, fun earlier le => (runTo_runTo started env.clock le).2⟩⟩
  · have own := all task.overAt moment
    rw [firings, same]
    exact own
  · rw [runTo_eq, same]
    rfl

/-- A task that starts after a second and then has a period of two, until the tenth. -/
def metronome : ScheduleTask where
  id := "t"
  entry := .empty
  config := {}
  dateFormat := ""
  resolved := ⟨{ start := 1000, stop := 10000, period := 2000 }, none⟩

/-- If each firing takes half a second longer than the period, the next comes as soon as it is
over, and now and then a point of the grid is passed over. -/
theorem metronome_follows_the_grid :
    let env : ScheduleEnvironment := { engine := .core, clock := .following 0, dateFormat := "" }
    let fired := ((metronome.start env).1.timer.runTo
      (metronome.timing.firing env.clock (· + 2500)) 20000 []).1
    metronome.timing.FiresAll 0 0 (· + 2500) 20000 fired ∧
      fired.map (·.start) = [1000, 3500, 6000, 8500] := by
  intro env fired
  have plans : plan env.wallTime metronome.timing = .ok (.periodic 1000 2000) := by decide
  refine ⟨(firings_follow_the_grid rfl rfl plans (.inr (by decide))).1 (· + 2500) 20000, ?_⟩
  decide +kernel

end ScheduleTask
end ScriptHost
