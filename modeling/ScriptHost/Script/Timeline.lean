import ScriptHost.Script.Context
/-!
# Outputs on a time line

Lines appear at the moment they are printed and a pause moves that moment on; both in milliseconds.

A `Screen` holds the lines that runs underway are still going to print. Since a run's output
does not depend on anything that happens while it is under way, it is known as soon as the run
starts.
-/
namespace ScriptHost

/-- A printed line and the moment it appeared. -/
structure TimedLine where
  time : Nat
  text : String
  deriving DecidableEq, Repr

/-- The lines of an output played from a moment on, and the moment when it is over. -/
def Output.play (now : Nat) : List Output → List TimedLine × Nat
  | [] => ([], now)
  | .line text :: rest =>
    let (lines, stop) := play now rest
    (⟨now, text⟩ :: lines, stop)
  | .pause milliseconds :: rest => play (now + milliseconds.toNat) rest

/-- What is still to be printed, in order of time, as seen at a moment. -/
structure Screen where
  now : Nat := 0
  upcoming : List TimedLine := []
  deriving Inhabited

namespace Screen

/-- Adds lines that are to come, behind those of the same moment. -/
def announce (screen : Screen) (lines : List TimedLine) : Screen :=
  { screen with
    upcoming := (screen.upcoming ++ lines).mergeSort fun first second => first.time ≤ second.time }

/-- Starts an output now: the moment when it is over. -/
def start (screen : Screen) (output : Array Output) : Screen × Nat :=
  let (lines, stop) := Output.play screen.now output.toList
  (screen.announce lines, stop)

/-- Moves on to a moment; the lines that appear until then. -/
def moveTo (screen : Screen) (moment : Nat) : Screen × List TimedLine :=
  let due (line : TimedLine) : Bool := line.time ≤ moment
  (⟨moment, screen.upcoming.dropWhile due⟩, screen.upcoming.takeWhile due)

end Screen
end ScriptHost
