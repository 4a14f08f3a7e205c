import ScriptHost.Proofs.Schedule.Grid
/-!
# Plans over the whole range of instants

An instant is an integer of 64 bits and a period a natural number of 64 bits. The difference of two
instants can be twice as large as an instant, and the next point of a grid can be later than the
last instant. So a plan is worked out in integers of 128 bits, whose quotients are rounded towards
zero, and what comes of it is a delay of 64 bits again.

**Calculations.** `planWithin?` works out a plan with every intermediate value checked: it answers
`none` if one of them does not fit.

**Results.**
* `planWithin?_eq`: nothing ever overflows, and what is worked out is the plan.
* `plan_is_exact`: what the plan is, and that it stays until the timing expires.
* `planned_but_expired`: an instant that is planned is not planned any more once the timing has
  expired, which may be before that instant.
-/
namespace ScriptHost

/-! ## The range -/

def IsInstant (x : Int) : Prop := -maxInstant - 1 ≤ x ∧ x ≤ maxInstant

instance (x : Int) : Decidable (IsInstant x) := inferInstanceAs (Decidable (_ ∧ _))

/-- A timing of instants with a period of 64 bits. -/
structure Timing.InRange (timing : Timing) : Prop where
  start : IsInstant timing.start
  stop : IsInstant timing.stop
  period : timing.period < 2 ^ 64

/-! ## Calculating -/

/-- A value that fits 128 bits with a sign. -/
def fitted? (x : Int) : Option Int := if -2 ^ 127 ≤ x ∧ x < 2 ^ 127 then some x else none

/-- A value as a delay, if it fits 64 bits without a sign. -/
def delayOf (ahead : Int) : Except TimingError Nat :=
  if 0 ≤ ahead ∧ ahead < 2 ^ 64 then .ok ahead.toNat else .error .outOfRange

/-- The delay until a timing fires next, as it is worked out. An overflow is an answer only where it
is looked for, that is for the next point of the grid. -/
def delayWithin? (now : Int) (timing : Timing) : Option (Except TimingError Nat) :=
  if timing.start ≠ Instant.unset ∧ now < timing.start then
    (fitted? (timing.start - now)).map delayOf
  else if 0 < timing.period then do
    let passed ← fitted? (now - timing.start)
    let whole ← fitted? (passed.tdiv timing.period)
    let turns ← fitted? (whole + 1)
    match (fitted? (turns * timing.period)).bind fun offset => fitted? (offset + timing.start) with
    | none => some (.error .outOfRange)
    | some next =>
      if next ≤ maxInstant then (fitted? (next - now)).map delayOf else some (.error .outOfRange)
  else some (delayOf 0)

/-- The next firing as seen at `now`, as it is worked out. -/
def planWithin? (now : Int) (timing : Timing) : Option (Except TimingError FirePlan) :=
  if timing.isExpired now then some (.ok .expired)
  else if 0 < timing.period ∧ timing.start = Instant.unset then
    some (.error (.periodWithoutStart timing.period))
  else
    (delayWithin? now timing).map fun delay => delay.map fun delay =>
      if 0 < timing.period then .periodic delay timing.period else .once delay

section

variable {now later x : Int} {timing : Timing} {planned : FirePlan}

theorem fitted?_eq (low : -2 ^ 127 ≤ x) (high : x < 2 ^ 127) : fitted? x = some x :=
  if_pos ⟨low, high⟩

theorem delayOf_eq (low : 0 ≤ x) (high : x < 2 ^ 64) : delayOf x = .ok x.toNat :=
  if_pos ⟨low, high⟩

/-- The next point of a grid is not further away than the period. -/
theorem nextGridPoint_bounds (positive : 0 < timing.period) :
    now < nextGridPoint now timing.start timing.period ∧
      nextGridPoint now timing.start timing.period ≤ now + timing.period := by
  have below := Int.ediv_mul_le (now - timing.start) (b := timing.period) (by omega)
  have above := Int.lt_ediv_add_one_mul_self (now - timing.start) (b := timing.period) (by omega)
  unfold nextGridPoint
  rw [Int.add_mul] at above ⊢
  omega

/-- The next point of the grid is worked out without an overflow, also when it is no instant. -/
theorem delayWithin?_on_grid (instant : IsInstant now) (range : timing.InRange)
    (started : timing.start ≤ now) (positive : 0 < timing.period) :
    delayWithin? now timing =
      some (if nextGridPoint now timing.start timing.period ≤ maxInstant then
          .ok (nextGridPoint now timing.start timing.period - now).toNat
        else .error .outOfRange) := by
  obtain ⟨startLow, startHigh⟩ := range.start
  obtain ⟨nowLow, nowHigh⟩ := instant
  have short := range.period
  obtain ⟨after, within⟩ : now < nextGridPoint now timing.start timing.period ∧
      nextGridPoint now timing.start timing.period ≤ now + timing.period :=
    nextGridPoint_bounds positive
  -- rounding towards zero is rounding down here, and no turn is shorter than a millisecond
  have rounded := Int.tdiv_eq_ediv_of_nonneg (b := timing.period) (Int.sub_nonneg.2 started)
  have few := Int.ediv_le_self timing.period (Int.sub_nonneg.2 started)
  have natural : 0 ≤ (now - timing.start) / timing.period :=
    Int.ediv_nonneg (Int.sub_nonneg.2 started) (by omega)
  have last : maxInstant = 0x7FFFFFFFFFFFFFFF := rfl
  unfold nextGridPoint at *
  rw [delayWithin?, if_neg (by omega), if_pos positive]
  simp only [fitted?_eq (x := now - timing.start) (by omega) (by omega), Option.bind_eq_bind,
    Option.bind_some, rounded]
  generalize (now - timing.start) / timing.period = whole at *
  rw [fitted?_eq (by omega) (by omega), Option.bind_some, fitted?_eq (by omega) (by omega),
    Option.bind_some]
  generalize (whole + 1) * timing.period = offset at *
  rw [fitted?_eq (by omega) (by omega), Option.bind_some, fitted?_eq (by omega) (by omega),
    Int.add_comm offset]
  simp only
  split
  · rw [fitted?_eq (by omega) (by omega), Option.map_some, delayOf_eq (by omega) (by omega)]
  · rfl

/-- Working out a plan never overflows, and comes to the plan. -/
theorem planWithin?_eq (instant : IsInstant now) (range : timing.InRange) :
    planWithin? now timing = some (plan now timing) := by
  unfold planWithin? plan
  split
  · rfl
  split
  · rfl
  next unset =>
  by_cases ahead : timing.start ≠ Instant.unset ∧ now < timing.start
  · obtain ⟨startLow, startHigh⟩ := range.start
    obtain ⟨nowLow, nowHigh⟩ := instant
    have last : maxInstant = 0x7FFFFFFFFFFFFFFF := rfl
    rw [delayWithin?, if_pos ahead, fitted?_eq (by omega) (by omega), Option.map_some,
      Option.map_some, delayOf_eq (by omega) (by omega)]
    simp only [if_pos ahead]
    rfl
  by_cases periodic : 0 < timing.period
  · have started : timing.start ≤ now := by
      by_contra early
      exact ahead ⟨fun none => unset ⟨periodic, none⟩, by omega⟩
    rw [delayWithin?_on_grid instant range started periodic]
    simp only [ahead, periodic, if_true, if_false, Option.map_some]
    split <;> rfl
  · rw [delayWithin?, if_neg ahead, if_neg periodic]
    simp only [ahead, periodic, if_false]
    rfl

end

/-! ## What is planned -/

section

variable {now later x : Int} {timing : Timing} {planned : FirePlan}

theorem plan_expired_iff :
    plan now timing = .ok .expired ↔ timing.stop ≠ Instant.unset ∧ timing.stop ≤ now := by
  have expired : timing.isExpired now = true ↔ timing.stop ≠ Instant.unset ∧ timing.stop ≤ now := by
    simp [Timing.isExpired]
  rw [← expired]
  refine ⟨fun h => ?_, fun h => by rw [plan, if_pos h]⟩
  rcases plan_next h with ⟨-, expired⟩ | ⟨_, eq, -⟩ | ⟨_, eq, -⟩
  · exact expired
  · cases eq
  · cases eq

variable (valid : timing.isExpired now = false)

include valid

theorem plan_single (single : timing.period = 0) : plan now timing = .ok (.once
    (if timing.start = Instant.unset then 0 else (max 0 (timing.start - now)).toNat)) := by
  unfold plan
  simp only [valid, single, Nat.lt_irrefl, false_and, if_false, Bool.false_eq_true]
  by_cases unset : timing.start = Instant.unset
  · simp [unset]
  · by_cases ahead : now < timing.start
    · simp only [unset, ahead, ne_eq, not_false_eq_true, and_self, if_true, if_false]
      rw [Int.max_eq_right (by omega)]
    · simp only [unset, ahead, and_false, if_false]
      rw [Int.max_eq_left (by omega)]

theorem plan_without_start (periodic : 0 < timing.period) (unset : timing.start = Instant.unset) :
    plan now timing = .error (.periodWithoutStart timing.period) := by
  simp [plan, valid, periodic, unset]

theorem plan_ahead (periodic : 0 < timing.period) (isSet : timing.start ≠ Instant.unset)
    (ahead : now < timing.start) :
    plan now timing = .ok (.periodic (timing.start - now).toNat timing.period) := by
  simp [plan, valid, periodic, isSet, ahead]

theorem plan_on_grid (periodic : 0 < timing.period) (isSet : timing.start ≠ Instant.unset)
    (started : timing.start ≤ now) : plan now timing =
      if nextGridPoint now timing.start timing.period ≤ maxInstant then
        .ok (.periodic (nextGridPoint now timing.start timing.period - now).toNat timing.period)
      else .error .outOfRange := by
  have notAhead : ¬ now < timing.start := by omega
  simp [plan, valid, periodic, isSet, notAhead]

end

/-- The instant of the next firing, as a plan that is made at `now` names it. -/
def FirePlan.instant? (now : Int) : FirePlan → Option Int
  | .expired => none
  | .once delay => some (now + delay)
  | .periodic delay _ => some (now + delay)

/-- Until the instant that it names, and as long as the timing has not expired, a plan can be made
anew and names the same instant. -/
theorem plan_again {now later x : Int} {timing : Timing} {planned : FirePlan}
    (h : plan now timing = .ok planned) (named : planned.instant? now = some x)
    (after : now ≤ later) (before : later < x) (valid : timing.isExpired later = false) :
    ∃ again, plan later timing = .ok again ∧ again.instant? later = some x := by
  have valid' : timing.isExpired now = false := by
    by_contra expired
    rw [Bool.not_eq_false] at expired
    rw [Timing.isExpired_mono expired after] at valid
    cases valid
  by_cases periodic : 0 < timing.period
  · by_cases unset : timing.start = Instant.unset
    · rw [plan_without_start valid' periodic unset] at h
      cases h
    by_cases ahead : now < timing.start
    · rw [plan_ahead valid' periodic unset ahead] at h
      cases h
      have isStart : x = timing.start := by
        simp only [FirePlan.instant?, Option.some.injEq] at named
        omega
      refine ⟨_, plan_ahead valid periodic unset (by omega), ?_⟩
      simp only [FirePlan.instant?, Option.some.injEq]
      omega
    · have least := nextGridPoint_isLeast periodic (by omega : timing.start ≤ now)
      rw [plan_on_grid valid' periodic unset (by omega)] at h
      split at h
      · next there =>
        cases h
        have isNext : x = nextGridPoint now timing.start timing.period := by
          have later := least.1.2
          simp only [FirePlan.instant?, Option.some.injEq] at named
          omega
        -- it is still the least point that lies ahead
        have least' := nextGridPoint_isLeast periodic (by omega : timing.start ≤ later)
        have same : nextGridPoint later timing.start timing.period = x := by
          refine least'.unique ⟨⟨isNext ▸ least.1.1, before⟩, fun y hy => ?_⟩
          exact isNext ▸ least.2 ⟨hy.1, Int.lt_of_le_of_lt after hy.2⟩
        have again := plan_on_grid valid periodic unset (by omega)
        rw [same, isNext, if_pos there] at again
        refine ⟨_, again, ?_⟩
        simp only [FirePlan.instant?, Option.some.injEq]
        omega
      · cases h
  · have single : timing.period = 0 := by omega
    rw [plan_single valid' single] at h
    cases h
    refine ⟨_, plan_single valid single, ?_⟩
    simp only [FirePlan.instant?, Option.some.injEq] at named ⊢
    split at named <;> split <;> omega

/-- For all instants of 64 bits and periods of 64 bits, a plan is worked out without an overflow. It
is that the timing has expired exactly if its end is set and reached. Otherwise, without a period it
is one firing, at the start or at once; with a period and no start it is refused; before the start
it is the start; and from then on it is the least point of the grid ahead, which is no further away
than the period, and is refused exactly if it is later than the last instant. A plan that is made
again before the instant that it names, and before the timing expires, names the same instant. -/
theorem plan_is_exact {now : Int} {timing : Timing} (instant : IsInstant now)
    (range : timing.InRange) :
    planWithin? now timing = some (plan now timing) ∧
    (plan now timing = .ok .expired ↔ timing.stop ≠ Instant.unset ∧ timing.stop ≤ now) ∧
    (timing.isExpired now = false →
      (timing.period = 0 → plan now timing = .ok (.once
        (if timing.start = Instant.unset then 0 else (max 0 (timing.start - now)).toNat))) ∧
      (0 < timing.period → timing.start = Instant.unset →
        plan now timing = .error (.periodWithoutStart timing.period)) ∧
      (0 < timing.period → timing.start ≠ Instant.unset → now < timing.start →
        plan now timing = .ok (.periodic (timing.start - now).toNat timing.period)) ∧
      (0 < timing.period → timing.start ≠ Instant.unset → timing.start ≤ now →
        ∃ next, IsLeast (timing.gridAfter now) next ∧ next ≤ now + timing.period ∧
          (next ≤ maxInstant →
            plan now timing = .ok (.periodic (next - now).toNat timing.period)) ∧
          (plan now timing = .error .outOfRange ↔ maxInstant < next))) ∧
    ∀ planned x, plan now timing = .ok planned → planned.instant? now = some x →
      ∀ later, now ≤ later → later < x → timing.isExpired later = false →
        ∃ again, plan later timing = .ok again ∧ again.instant? later = some x := by
  refine ⟨planWithin?_eq instant range, plan_expired_iff, fun valid => ⟨plan_single valid,
    plan_without_start valid, plan_ahead valid, fun periodic isSet started => ?_⟩,
    fun planned x h named later after before valid => plan_again h named after before valid⟩
  refine ⟨_, nextGridPoint_isLeast periodic started, (nextGridPoint_bounds periodic).2, ?_, ?_⟩
  · intro there
    rw [plan_on_grid valid periodic isSet started, if_pos there]
  · rw [plan_on_grid valid periodic isSet started]
    split
    · next there => exact ⟨nofun, fun beyond => absurd there (by omega)⟩
    · next beyond => exact ⟨fun _ => by omega, fun _ => rfl⟩

/-- From the first instant on, every so often for almost the whole range, as seen at the last
instant. -/
def longHaul : Timing := { start := -maxInstant - 1, period := 2 ^ 64 - 1 }

/-- The next point of the grid is no instant any more, and nothing overflows. -/
theorem plan_is_exact_longHaul : IsInstant maxInstant ∧ longHaul.InRange ∧
    planWithin? maxInstant longHaul = some (.error .outOfRange) := by
  have instant : IsInstant maxInstant := by decide
  have range : longHaul.InRange := ⟨by decide, by decide, by decide⟩
  obtain ⟨worked, -⟩ := plan_is_exact instant range
  exact ⟨instant, range, worked.trans (by decide +kernel)⟩

/-- A start that is planned is not planned any more once the timing has expired, which may be before
the start. -/
theorem planned_but_expired :
    ¬ ∀ now timing, IsInstant now → timing.InRange → ∀ planned x, plan now timing = .ok planned →
      planned.instant? now = some x → ∀ later, now ≤ later → later < x →
        ∃ again, plan later timing = .ok again ∧ again.instant? later = some x := by
  intro all
  obtain ⟨again, planned, named⟩ := all 0 { start := 100, stop := 50 } (by decide)
    ⟨by decide, by decide, by decide⟩ (.once 100) 100 (by decide) (by decide) 60 (by decide)
    (by decide)
  cases (show plan 60 { start := 100, stop := 50 } = .ok .expired by decide).symm.trans planned
  cases named

end ScriptHost
