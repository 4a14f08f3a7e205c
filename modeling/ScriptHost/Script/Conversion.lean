import ScriptHost.Script.Error
import ScriptHost.Text.Blank
/-!
# Typed parameters

What a parameter of a given type makes of a value. Text and truth values take anything; numbers
take numbers, and text that writes one between blanks. An integer parameter drops the fraction
of a double and holds it inside the signed 64-bit range; an unsigned one accepts what an integer
parameter makes of the value if that is not negative.
-/
namespace ScriptHost

/-- Types that a parameter can have. -/
class FromValue (α : Type) where
  fromValue : Value → Except ScriptError α

export FromValue (fromValue)

instance : FromValue Value := ⟨.ok⟩
instance : FromValue String := ⟨fun value => .ok value.display⟩
instance : FromValue Bool := ⟨fun value => .ok value.isTruthy⟩

/-- The integer a text writes: a sign if any, then digits and nothing else. -/
def readInt? (text : List Char) : Option Int :=
  let (negative, digits) := match text with
    | '-' :: rest => (true, rest)
    | '+' :: rest => (false, rest)
    | rest => (false, rest)
  if digits.isEmpty || !digits.all Char.isDigit then none
  else some (if negative then -(decimalValue digits : Int) else decimalValue digits)

/-- The signed 64-bit integer a text writes. -/
def readInt64? (text : List Char) : Option Int64 :=
  match readInt? text with
  | none => none
  | some n => if -0x8000000000000000 ≤ n ∧ n < 0x8000000000000000 then some (Int64.ofInt n)
    else none

/-- The integer that an integer parameter makes of a number: the number itself if it fits, else
that of the double nearest to it. -/
def Number.toInt64 : Number → Int64
  | .whole n =>
    if n.val < 0x8000000000000000 then Int64.ofInt n.val
      else Int64.ofInt (Binary64.ofInt n.val).truncated
  | .float x => Int64.ofInt x.truncated

instance : FromValue Int64 where
  fromValue
    | .number n => .ok n.toInt64
    | value@(.string s) =>
      match readInt64? (Text.trim s.toList) with
      | some n => .ok n
      | none => .error (.typeMismatch "integer" value)
    | value => .error (.typeMismatch "integer" value)

instance : FromValue UInt64 where
  fromValue value := do
    let n : Int64 ← fromValue value
    if n < 0 then .error (.typeMismatch "unsigned integer" value) else .ok n.toUInt64

instance : FromValue Binary64 where
  fromValue
    | .number n => .ok n.toBinary64
    | value@(.string s) =>
      match Binary64.read? (Text.trim s.toList) with
      | some x => .ok x
      | none => .error (.typeMismatch "number" value)
    | value => .error (.typeMismatch "number" value)

end ScriptHost
