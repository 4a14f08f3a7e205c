import ScriptHost.Decimal.Digits
/-!
# Script values

What scripts compute with: null, truth values, numbers, text, lists, and objects whose keys are
in ascending order. A number is either an integer that fits the signed or the unsigned 64-bit
range, or a finite double.

* `Value.text` is the compact JSON text of a value, `Value.display` what `print` shows of it,
  `Value.isTruthy` what a condition makes of it.
-/
namespace ScriptHost

/-- The integers a value can hold: the signed and the unsigned 64-bit range together. -/
abbrev Whole := { n : Int // -0x8000000000000000 ≤ n ∧ n < 0x10000000000000000 }

/-- A signed 64-bit integer as one that a value can hold. -/
def Whole.ofInt64 (n : Int64) : Whole :=
  ⟨n.toInt, by have := n.le_toInt; have := n.toInt_lt; omega⟩

inductive Number where
  | whole (n : Whole)
  | float (x : Binary64)
  deriving DecidableEq

inductive Value where
  | null
  | bool (b : Bool)
  | number (n : Number)
  | string (s : String)
  | array (items : List Value)
  | object (entries : List (String × Value))
  deriving Inhabited

/-- Doubles in values and messages: the point stands in place from the fifth decimal to sixteen
whole digits, and a larger number has a sign on its exponent. -/
def Number.layout : DecimalLayout where
  smallestPlain := -5
  largestPlain := 15
  plusSign := true
  tieUp := false

namespace Number

def text : Number → String
  | whole n => toString n.val
  | float x => layout.text x

def toBinary64 : Number → Binary64
  | whole n => Binary64.ofInt n.val
  | float x => x

end Number

namespace Value

def hexDigit (n : Nat) : Char := Nat.digitChar (n % 16)

/-- A character inside JSON quotes: the quote, the backslash and the control characters below
the space are escaped, all else stands for itself. -/
def escapeChar (c : Char) : List Char :=
  match c with
  | '"' => ['\\', '"']
  | '\\' => ['\\', '\\']
  | '\n' => ['\\', 'n']
  | '\r' => ['\\', 'r']
  | '\t' => ['\\', 't']
  | c =>
    if c.toNat = 8 then ['\\', 'b']
    else if c.toNat = 12 then ['\\', 'f']
    else if c.toNat < 32 then ['\\', 'u', '0', '0', hexDigit (c.toNat / 16), hexDigit c.toNat]
    else [c]

def quoted (s : String) : String :=
  String.ofList ('"' :: s.toList.flatMap escapeChar ++ ['"'])

mutual

/-- The compact JSON text of a value. -/
def text : Value → String
  | null => "null"
  | bool b => if b then "true" else "false"
  | number n => n.text
  | string s => quoted s
  | array items => "[" ++ ",".intercalate (itemTexts items) ++ "]"
  | object entries => "\x7b" ++ ",".intercalate (entryTexts entries) ++ "\x7d"

def itemTexts : List Value → List String
  | [] => []
  | item :: rest => item.text :: itemTexts rest

def entryTexts : List (String × Value) → List String
  | [] => []
  | (key, value) :: rest => (quoted key ++ ":" ++ value.text) :: entryTexts rest

end

/-- What `print` shows: a string as it is, anything else as JSON. -/
def display : Value → String
  | string s => s
  | value => value.text

/-- What a condition makes of a value: null, zero, the empty string, the string `false` and empty
collections count as false, and so does a number that is no number. -/
def isTruthy : Value → Bool
  | null => false
  | bool b => b
  | number (.whole n) => n.val != 0
  | number (.float x) => !x.isZero
  | string s => s != "" && s != "false"
  | array items => !items.isEmpty
  | object entries => !entries.isEmpty

/-- A double as a value; one that is not finite has no JSON form and becomes null. -/
def ofBinary64 (x : Binary64) : Value := if x.isFinite then number (.float x) else null

/-- A natural as a value: an integer while it fits, a double beyond. -/
def ofInt (n : Int) : Value :=
  if h : -0x8000000000000000 ≤ n ∧ n < 0x10000000000000000 then number (.whole ⟨n, h⟩)
    else ofBinary64 (Binary64.ofInt n)

end Value
end ScriptHost
