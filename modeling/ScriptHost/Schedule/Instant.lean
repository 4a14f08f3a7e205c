import ScriptHost.Calendar.Reading
/-!
# Instants

An instant is the number of milliseconds since the start of 1970, in universal time; -1 stands
for an instant that is not set. A text that gives a date but no usable time stands for the start
of that day.

**Time zone.** Dates and times are local, and the local time zone is taken to be universal time.
There every date and time is one instant. Where a zone changes its offset a date and time may be no
instant or two, of which the earlier would count; such zones are not described here.
-/
namespace ScriptHost.Instant

def unset : Int := -1

/-- The instant that a text gives after a pattern; blanks around the text do not count. -/
def read? (text pattern : String) : Option Int :=
  let text := trimBlank text
  match Moment.read? text pattern with
  | some moment => some moment.toMillis
  | none => (Date.read? text pattern).map fun date => (⟨date, ⟨0, 0, 0, 0⟩⟩ : Moment).toMillis

/-- The text of an instant after a pattern; its number if there is no such date. -/
def text (millis : Int) (pattern : String) : String :=
  if millis = unset then "unset"
  else
    match Moment.ofMillis millis with
    | some moment => (moment.write? pattern).getD ""
    | none => toString millis

end ScriptHost.Instant
