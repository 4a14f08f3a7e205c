/-!
# Timers

A timer fires after a delay, once or then periodically, and each firing may start work that
takes a while. The firings of an asynchronous timer do not wait for that work, those of a
synchronous one do. A firing that comes late is made up for at once, and the next is due on the
grid of the first: `nextDue` skips the grid points that were missed. A job may refuse a firing,
which ends the timer, as cancelling does; work that was started goes on.

`runTo` fires a timer up to a moment. `lt_nextDue` says that every firing is due after the one
before it, which is why that ends.
-/
namespace ScriptHost

/-- How a timer is to fire; times in milliseconds. -/
structure TimerSpec where
  async : Bool
  delay : Nat
  /-- The time from one firing to the next, if there is more than one. -/
  period : Option Nat
  deriving DecidableEq, Repr

/-- A timer that waits for its next firing. -/
structure WaitingTimer where
  async : Bool
  period : Option Nat
  /-- The moment that the firing is due. -/
  due : Nat
  /-- The moment that the firing takes place: later than it is due if the work before it takes
  longer. -/
  wake : Nat
  due_le_wake : due ≤ wake

inductive Timer where
  | waiting (timer : WaitingTimer)
  /-- The last firing was made and its work is waited for, until this moment. -/
  | closing (stop : Nat)
  | ended

/-- The timer that is set at a moment. -/
def TimerSpec.set (spec : TimerSpec) (now : Nat) : Timer :=
  .waiting ⟨spec.async, spec.period, now + spec.delay, now + spec.delay, Nat.le_refl _⟩

/-- What a timer does when it fires, in a state of its own: whether the firing takes place at
that moment, and if so when its work is over. -/
abbrev TimerJob (σ : Type) := Nat → σ → σ × Option Nat

namespace WaitingTimer

/-- A firing that is late by this many milliseconds still counts as one in time. -/
def tolerance : Nat := 5

/-- The moment when the firing is due that follows one that was due at `due` and made at `now`. -/
def nextDue (due now period : Nat) : Nat :=
  if now ≤ due + tolerance then due + period else now + period - (now - due) % period

theorem lt_nextDue {due now period : Nat} (positive : 0 < period) :
    due < nextDue due now period := by
  have := Nat.mod_lt (now - due) positive
  unfold nextDue
  split <;> omega

/-- Fires once. A timer with an empty period ends before its first firing. -/
def fire {σ : Type} (job : TimerJob σ) (timer : WaitingTimer) (state : σ) : σ × Timer :=
  if timer.period = some 0 then (state, .ended)
  else
    match job timer.wake state with
    | (state, none) => (state, .ended)
    | (state, some stop) =>
      match timer.period with
      | none => (state, if timer.async then .ended else .closing stop)
      | some period =>
        let due := nextDue timer.due timer.wake period
        let ready := if timer.async then timer.wake else stop
        (state, .waiting ⟨timer.async, timer.period, due, max ready due, Nat.le_max_right ..⟩)

theorem due_lt_of_fire {σ : Type} {job : TimerJob σ} {timer next : WaitingTimer} {state after : σ}
    (h : timer.fire job state = (after, .waiting next)) : timer.due < next.due := by
  unfold fire at h
  split at h
  · simp at h
  · next positive =>
    split at h
    · simp at h
    · split at h
      · split at h <;> simp at h
      · next period eq =>
        simp only [Prod.mk.injEq, Timer.waiting.injEq] at h
        rw [← h.2]
        exact lt_nextDue (by grind)

/-- Fires as often as it takes place up to a moment. -/
def runTo {σ : Type} (job : TimerJob σ) (moment : Nat) (timer : WaitingTimer) (state : σ) :
    σ × Timer :=
  if timer.wake ≤ moment then
    match _h : timer.fire job state with
    | (state, .waiting next) => next.runTo job moment state
    | final => final
  else (state, .waiting timer)
termination_by moment + 1 - timer.due
decreasing_by
  have := due_lt_of_fire _h
  have := timer.due_le_wake
  omega

end WaitingTimer

namespace Timer

def runTo {σ : Type} (job : TimerJob σ) (moment : Nat) (timer : Timer) (state : σ) : σ × Timer :=
  match timer with
  | waiting timer => timer.runTo job moment state
  | final => (state, final)

/-- Whether a timer is still to do something after a moment. -/
def isRunning (timer : Timer) (now : Nat) : Bool :=
  match timer with
  | waiting _ => true
  | closing stop => now < stop
  | ended => false

end Timer
end ScriptHost
