import ScriptHost.Schedule.Instant
import ScriptHost.Text.Alphanumeric
/-!
# Timing of schedules

A schedule has a start, an end and a period, each of which may be unset, and `plan` says when it
fires next as seen at a moment: never if its end has been reached, at its start if that is to
come, and otherwise at once or, with a period, at the next point of the grid `start + k ·
period`.

`Period.read` adds up the numbers of a text that a unit follows: days, hours, minutes or seconds.
-/
namespace ScriptHost

inductive TimingError where
  | periodWithoutStart (period : Nat)
  | emptyPeriod (text : String)
  | periodOutOfRange (text : String)
  | outOfRange
  deriving DecidableEq, Repr

def TimingError.message : TimingError → String
  | periodWithoutStart period => "a period of " ++ toString period ++ "ms requires a start time"
  | emptyPeriod text => "period '" ++ text ++ "' has no <int>[dhms] duration"
  | periodOutOfRange text => "period '" ++ text ++ "' is out of range"
  | outOfRange => "next fire time is out of range"

/-- When a schedule is to fire: instants and the period in milliseconds, where a period of zero
is none. With `async` the firings of a period do not wait for each other. -/
structure Timing where
  start : Int := Instant.unset
  stop : Int := Instant.unset
  period : Nat := 0
  async : Bool := false
  deriving DecidableEq, Repr

/-- The next firing of a schedule, after a delay in milliseconds. -/
inductive FirePlan where
  | expired
  | once (delay : Nat)
  | periodic (delay period : Nat)
  deriving DecidableEq, Repr

/-- Whether a set end has been reached. -/
def Timing.isExpired (timing : Timing) (now : Int) : Bool :=
  timing.stop != Instant.unset && timing.stop ≤ now

def maxInstant : Int := 0x7FFFFFFFFFFFFFFF

/-- The first point of the grid `start + k · period` after `now`, where `start ≤ now`. -/
def nextGridPoint (now start period : Int) : Int := start + ((now - start) / period + 1) * period

/-- The next firing as seen at `now`. -/
def plan (now : Int) (timing : Timing) : Except TimingError FirePlan :=
  if timing.isExpired now then .ok .expired
  else if 0 < timing.period ∧ timing.start = Instant.unset then
    .error (.periodWithoutStart timing.period)
  else
    let planned (delay : Int) : FirePlan :=
      if 0 < timing.period then .periodic delay.toNat timing.period else .once delay.toNat
    if timing.start ≠ Instant.unset ∧ now < timing.start then .ok (planned (timing.start - now))
    else if 0 < timing.period then
      let next := nextGridPoint now timing.start timing.period
      if next ≤ maxInstant then .ok (planned (next - now)) else .error .outOfRange
    else .ok (planned 0)

namespace Period

/-- The milliseconds of a unit, in either case; the long s counts as an s. -/
def unit? (c : Char) : Option Nat :=
  if c = 'd' || c = 'D' then some 86400000
  else if c = 'h' || c = 'H' then some 3600000
  else if c = 'm' || c = 'M' then some 60000
  else if c = 's' || c = 'S' || c = 'ſ' then some 1000
  else none

/-- The runs of digits that a unit follows, with the milliseconds of the unit. `run` holds the
digits just before the text, in reverse. -/
def tokens (run : List Char) : List Char → List (List Char × Nat)
  | [] => []
  | c :: rest =>
    if Text.isDecimalDigit c then tokens (c :: run) rest
    else
      match run, unit? c with
      | _ :: _, some unit => (run.reverse, unit) :: tokens [] rest
      | _, _ => tokens [] rest

/-- The milliseconds of a token, unless it has a digit other than the ASCII ones. -/
def value? (token : List Char × Nat) : Option Nat :=
  if token.1.all Char.isDigit then some (decimalValue token.1 * token.2) else none

/-- The period of a text in milliseconds. -/
def read (text : String) : Except TimingError Nat :=
  match (tokens [] text.toList).mapM value? with
  | none => .error (.periodOutOfRange text)
  | some values =>
    let total := values.foldl (· + ·) 0
    if total = 0 then .error (.emptyPeriod text)
    else if total ≤ 0x7FFFFFFFFFFFFFFF then .ok total
    else .error (.periodOutOfRange text)

end Period
end ScriptHost
