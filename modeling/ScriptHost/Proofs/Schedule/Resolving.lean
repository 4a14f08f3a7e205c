import ScriptHost.Schedule.Task
/-!
# Configured instants

A configuration may or may not give a start and an end, and a text that cannot be read gives none.
A timing has an instant in either case, and one number among the instants says that there is none.
So a text that is read as that very number is lost: the last millisecond before 1970 can be
configured, but it counts as no instant. Every other instant counts, before 1970 or after.

**What is said.** `GivenTiming` has its instants as options, and is planned by cases on them.
`ScheduleConfig.given` reads them off a configuration, and `GivenTiming.heeded` leaves out the one
that counts as none.

**Results.**
* `plan_eq_given`, `isExpired_eq_given`: a timing is planned, and has expired, as the instants that
  it has say.
* `given_instants_count`: a configuration is planned as the instants that it gives say, but for
  the one.
* `last_millisecond_is_lost`: the one is given and does not count.
-/
namespace ScriptHost

/-- When a schedule is to fire; what is missing is not set. -/
structure GivenTiming where
  start : Option Int
  stop : Option Int
  period : Nat
  deriving DecidableEq

namespace GivenTiming

def hasEnded (given : GivenTiming) (now : Int) : Bool := given.stop.any (· ≤ now)

/-- The next firing as seen at `now`. -/
def plan (given : GivenTiming) (now : Int) : Except TimingError FirePlan :=
  if given.hasEnded now then .ok .expired
  else
    match given.start, given.period with
    | none, 0 => .ok (.once 0)
    | some start, 0 => .ok (.once (start - now).toNat)
    | none, period + 1 => .error (.periodWithoutStart (period + 1))
    | some start, period + 1 =>
      if now < start then .ok (.periodic (start - now).toNat (period + 1))
      else
        let next := nextGridPoint now start (period + 1)
        if next ≤ maxInstant then .ok (.periodic (next - now).toNat (period + 1))
        else .error .outOfRange

/-- The timing without instants that count as none. -/
def heeded (given : GivenTiming) : GivenTiming where
  start := given.start.filter (· ≠ Instant.unset)
  stop := given.stop.filter (· ≠ Instant.unset)
  period := given.period

end GivenTiming

/-- The instant that a configured text gives, if there is a text and it can be read. -/
def ScheduleConfig.instant? (config : ScheduleConfig) (dateFormat : String)
    (text : Option String) : Option Int :=
  text.bind (Instant.read? · (config.dateFormat.getD dateFormat))

/-- The timing that a configuration gives; a period that cannot be read is none. -/
def ScheduleConfig.given (config : ScheduleConfig) (dateFormat : String) : GivenTiming where
  start := config.instant? dateFormat config.start
  stop := config.instant? dateFormat config.stop
  period := (config.period.bind fun text => (Period.read text).toOption).getD 0

/-! ## Instants of a timing -/

/-- The instant that a number stands for, if it is set. -/
def Instant.set? (millis : Int) : Option Int := if millis = unset then none else some millis

theorem Instant.set?_getD (instant : Option Int) :
    set? (instant.getD unset) = instant.filter (· ≠ unset) := by
  cases instant with
  | none => rfl
  | some t => by_cases isUnset : t = unset <;> simp [set?, isUnset, Option.filter]

/-- The instants and the period of a timing. -/
def Timing.given (timing : Timing) : GivenTiming where
  start := Instant.set? timing.start
  stop := Instant.set? timing.stop
  period := timing.period

section

variable (timing : Timing) (now : Int)

theorem isExpired_eq_given : timing.isExpired now = timing.given.hasEnded now := by
  unfold Timing.isExpired GivenTiming.hasEnded Timing.given Instant.set?
  by_cases isUnset : timing.stop = Instant.unset <;> simp [isUnset]

theorem plan_eq_given : plan now timing = timing.given.plan now := by
  unfold plan GivenTiming.plan
  rw [isExpired_eq_given]
  split
  · rfl
  next running =>
  by_cases isUnset : timing.start = Instant.unset
  · have start : timing.given.start = none := if_pos isUnset
    have period : timing.given.period = timing.period := rfl
    rw [start, period]
    cases timing.period with
    | zero => simp [isUnset]
    | succ period => simp [isUnset]
  · have start : timing.given.start = some timing.start := if_neg isUnset
    have period : timing.given.period = timing.period := rfl
    rw [start, period]
    cases timing.period with
    | zero =>
      by_cases ahead : now < timing.start
      · simp [isUnset, ahead]
      · have passed : (timing.start - now).toNat = 0 := by omega
        simp [ahead, passed]
    | succ period => by_cases ahead : now < timing.start <;> simp [isUnset, ahead]

end

/-! ## Instants of a configuration -/

/-- A configuration is resolved to the instants that it gives, but for the one that counts as
none. -/
theorem ScheduleConfig.given_resolve (config : ScheduleConfig) (dateFormat : String) :
    (config.resolve dateFormat).timing.given = (config.given dateFormat).heeded := by
  have instants (period : Nat) (problem : Option TimingError)
      (eq : ((config.period.bind fun text => (Period.read text).toOption).getD 0) = period) :
      (⟨{ start := (config.instant? dateFormat config.start).getD Instant.unset
          stop := (config.instant? dateFormat config.stop).getD Instant.unset
          period, async := config.async }, problem⟩ : ResolvedTiming).timing.given =
        (config.given dateFormat).heeded := by
    simp only [Timing.given, GivenTiming.heeded, ScheduleConfig.given, Instant.set?_getD, eq]
  unfold ScheduleConfig.resolve
  cases written : config.period with
  | none => exact instants 0 none (by rw [written]; rfl)
  | some text =>
    cases read : Period.read text with
    | ok period =>
      simp only [Option.map_some, read]
      exact instants period none (by simp [written, read, Except.toOption])
    | error problem =>
      simp only [Option.map_some, read]
      exact instants 0 (some problem) (by simp [written, read, Except.toOption])

/-- At every instant, a resolved configuration is planned, and has expired, as the start and the end
say that its texts give, where a text that is missing or cannot be read gives none, and neither
does one that gives the number that is no instant. -/
theorem given_instants_count (config : ScheduleConfig) (dateFormat : String) (now : Int) :
    plan now (config.resolve dateFormat).timing =
        (config.given dateFormat).heeded.plan now ∧
      (config.resolve dateFormat).timing.isExpired now =
        (config.given dateFormat).heeded.hasEnded now := by
  rw [plan_eq_given, isExpired_eq_given, config.given_resolve dateFormat]
  exact ⟨rfl, rfl⟩

/-- A schedule that ends with the year 1969. -/
def oldSchedule : ScheduleConfig := { stop := some "1969-12-31 23:59:59.999" }

/-- The last millisecond before 1970 is given as an end and does not count as one. -/
theorem last_millisecond_is_lost :
    ¬ ∀ (config : ScheduleConfig) (dateFormat : String) (now : Int),
      plan now (config.resolve dateFormat).timing = (config.given dateFormat).plan now := by
  intro all
  have same := all oldSchedule "%Y-%m-%d %H:%M:%S%.3f" 0
  have read : Instant.read? "1969-12-31 23:59:59.999" "%Y-%m-%d %H:%M:%S%.3f" = some (-1) := by
    decide +kernel
  have planned : plan 0 (oldSchedule.resolve "%Y-%m-%d %H:%M:%S%.3f").timing = .ok (.once 0) := by
    simp [oldSchedule, ScheduleConfig.resolve, read, plan, Timing.isExpired, Instant.unset]
  have expired : (oldSchedule.given "%Y-%m-%d %H:%M:%S%.3f").plan 0 = .ok .expired := by
    simp [oldSchedule, ScheduleConfig.given, ScheduleConfig.instant?, read, GivenTiming.plan,
      GivenTiming.hasEnded]
  rw [planned, expired] at same
  cases same

end ScriptHost
