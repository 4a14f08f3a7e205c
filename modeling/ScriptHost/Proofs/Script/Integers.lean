import ScriptHost.Proofs.Assembly.Stripping
import ScriptHost.Proofs.Script.Spelling
/-!
# Integers as parameters

An integer is handed to a script as a number or as a text that writes it. Integer parameters take
either, and the signed range is where they agree: an integer in it arrives as it is, whatever form
it has, and one below zero is refused where no sign is allowed.

Above that range they differ. A text is refused, for the unsigned parameter too, since that reads a
signed integer first. A number takes the way of the numbers that have a fraction: it becomes the
nearest double, and what does not fit of that is cut off. Rounding takes no such integer below the
range again, so all of them arrive as the largest signed integer.

**Results.**
* `Binary64.truncated_ofInt`: the double nearest to an integer above the signed range is cut off at
  the end of that range.
* `Text.trim_surrounded`, `readInt64?_written`: what a text with blanks around an integer is read
  as.
* `integers_convert`: what integer parameters make of every integer and of every text that writes
  it; `largest_integer_is_not_kept` is an integer for which number and text differ.
-/
namespace ScriptHost

/-! ## Rounded integers -/

namespace Binary64

theorem roundedQuotient_bounds (num den : Nat) :
    num / den ≤ roundedQuotient num den ∧ roundedQuotient num den ≤ num / den + 1 := by
  unfold roundedQuotient
  simp only
  split <;> omega

/-- Of an integer of 64 bits the double nearest to it keeps the upper 53. -/
theorem nearestBits_of_upper {n : Nat} (lower : 0x8000000000000000 ≤ n)
    (upper : n < 0x10000000000000000) :
    nearestBits n 1 = 1085 * 0x10000000000000 + roundedQuotient n 2048 := by
  have size : n.log2 = 63 := (Nat.log2_eq_iff (by omega)).2 ⟨lower, upper⟩
  have unit : Nat.log2 1 = 0 := by decide
  have bounds := roundedQuotient_bounds n 2048
  -- Ten bits too many are one too few, as the quotient by them has 54 bits.
  have tight : 0x20000000000000 ≤ n * down 10 / (1 * up 10) := by
    rw [show down 10 = 1 from rfl, show up 10 = 1024 from rfl]
    omega
  unfold nearestBits
  simp only [size, unit]
  rw [show ((63 : Nat) : Int) - ((0 : Nat) : Int) - 53 = 10 from rfl, if_pos tight]
  rw [show max (10 + 1 : Int) (-1074) = 11 from rfl, show down 11 = 1 from rfl,
    show up 11 = 2048 from rfl, Nat.mul_one, Nat.one_mul]
  rw [Nat.min_eq_left]
  · rfl
  · show 1085 * 0x10000000000000 + roundedQuotient n 2048 ≤ 0x7FF0000000000000
    omega

theorem truncated_of_large {x : Binary64} (positive : x.isNegative = false)
    (large : 1086 * 0x10000000000000 ≤ x.magnitudeBits) (finite : x.magnitudeBits < infinityBits) :
    x.truncated = 0x7FFFFFFFFFFFFFFF := by
  have infinite : infinityBits = 0x7FF0000000000000 := rfl
  have exponent : x.exponent = (x.magnitudeBits / 0x10000000000000 : Nat) - 1075 := by
    rw [Binary64.exponent, if_neg (by omega)]
  have significand : 0x10000000000000 ≤ x.significand := by
    rw [Binary64.significand, if_neg (by omega)]
    exact Nat.le_add_left ..
  have scaled : 2 ^ 11 ≤ up x.exponent := Nat.pow_le_pow_right (by decide) (by omega)
  have whole : x.denominator = 1 := by
    rw [denominator, down, show (-x.exponent).toNat = 0 by omega, Nat.pow_eq, Nat.pow_zero]
  have reached : 0x10000000000000 * 2 ^ 11 ≤ x.numerator := Nat.mul_le_mul significand scaled
  have number : x.isNaN = false := by
    rw [isNaN, decide_eq_false (by omega)]
  have bounded : x.isInfinite = false := by
    rw [isInfinite, beq_eq_false_iff_ne]
    omega
  simp only [truncated, number, bounded, positive, whole, Nat.div_one, Bool.false_eq_true, if_false]
  omega

theorem toNat_ofMagnitude_false {bits : Nat} (small : bits < 0x8000000000000000) :
    (ofMagnitude false bits).bits.toNat = bits := by
  have fits : bits < UInt64.size := Nat.lt_trans small (by decide)
  simp only [ofMagnitude, Bool.false_eq_true, if_false, Nat.zero_add]
  exact UInt64.toNat_ofNat_of_lt' fits

/-- The double nearest to an integer above the signed range is cut off at the end of that range. -/
theorem truncated_ofInt {n : Int} (lower : 0x8000000000000000 ≤ n)
    (upper : n < 0x10000000000000000) : (ofInt n).truncated = 0x7FFFFFFFFFFFFFFF := by
  have bounds := roundedQuotient_bounds n.natAbs 2048
  have made : ofInt n =
      ofMagnitude false (1085 * 0x10000000000000 + roundedQuotient n.natAbs 2048) := by
    rw [ofInt, nearest, decide_eq_false (by omega), if_neg (by omega),
      nearestBits_of_upper (by omega) (by omega)]
  generalize roundedQuotient n.natAbs 2048 = m at bounds made
  have bits := @toNat_ofMagnitude_false (1085 * 0x10000000000000 + m) (by omega)
  rw [← made] at bits
  have magnitude : (ofInt n).magnitudeBits = 1085 * 0x10000000000000 + m := by
    rw [magnitudeBits, bits, Nat.mod_eq_of_lt (by omega)]
  refine truncated_of_large ?_ (by omega) ?_
  · rw [isNegative, bits, decide_eq_false (by omega)]
  · rw [magnitude, infinityBits]
    omega

end Binary64

/-! ## Written integers -/

theorem Text.trim_surrounded {before text behind : List Char} (blank : allBlank before)
    (blank' : allBlank behind) (solid : ∀ c ∈ text, isBlank c = false) :
    trim (before ++ (text ++ behind)) = text := by
  have start : trimStart (before ++ (text ++ behind)) = trimStart (text ++ behind) :=
    List.dropWhile_append_of_pos (List.all_eq_true.1 blank)
  rw [trim, start]
  cases text with
  | nil =>
    have gone : trimStart ([] ++ behind) = [] :=
      List.dropWhile_eq_nil_iff.2 (List.all_eq_true.1 blank')
    rw [gone, trimEnd]
  | cons first rest =>
    have starts : trimStart (first :: rest ++ behind) = first :: rest ++ behind :=
      List.dropWhile_cons_of_neg (by simp [solid first (.head _)])
    obtain ⟨front, last, same⟩ :=
      (List.eq_nil_or_concat' (first :: rest)).resolve_left (List.cons_ne_nil first rest)
    rw [starts, trimEnd_append_blanks _ blank', same]
    exact trimEnd_append (solid last (by simp [same]))

/-- A text that writes an integer, with or without blanks around it. -/
def Spells (n : Int) (text : String) : Prop :=
  ∃ before behind : List Char, Text.allBlank before ∧ Text.allBlank behind ∧
    text.toList = before ++ ((toString n).toList ++ behind)

theorem isBlank_of_isDigit {c : Char} (digit : c.isDigit = true) : Text.isBlank c = false := by
  cases blank : Text.isBlank c with
  | false => rfl
  | true =>
    rw [Text.of_isBlank (p := Char.isDigit) (by decide +kernel) blank] at digit
    cases digit

theorem isBlank_of_mem_toString {n : Int} {c : Char} (mem : c ∈ (toString n).toList) :
    Text.isBlank c = false := by
  obtain ⟨first, rest, spelled, digits, -, starts⟩ := toString_cases n
  rw [spelled] at mem
  rcases List.mem_cons.1 mem with rfl | mem
  · rcases starts with isDigit | ⟨rfl, -⟩
    · exact isBlank_of_isDigit isDigit
    · decide
  · exact isBlank_of_isDigit (List.all_eq_true.1 digits c mem)

theorem Spells.trim {n : Int} {text : String} (h : Spells n text) :
    Text.trim text.toList = (toString n).toList := by
  obtain ⟨before, behind, blank, blank', same⟩ := h
  rw [same, Text.trim_surrounded blank blank' fun c => isBlank_of_mem_toString]

theorem readInt64?_written (n : Int) : readInt64? (toString n).toList =
    if -0x8000000000000000 ≤ n ∧ n < 0x8000000000000000 then some (Int64.ofInt n) else none := by
  obtain ⟨first, rest, spelled, -, read, -⟩ := toString_cases n
  rw [readInt64?, spelled, read]

/-! ## Integer parameters -/

section Conversion

variable {n : Whole} {s : String} {value : Value} {m : Int64}

/-- A signed parameter takes every number, and holds an integer below the end of its range. -/
theorem fromValue_int64_number (n : Whole) :
    (fromValue (.number (.whole n)) : Except ScriptError Int64) =
      .ok (Int64.ofInt (min n.val 0x7FFFFFFFFFFFFFFF)) := by
  obtain ⟨n, lower, upper⟩ := n
  show Except.ok (if n < 0x8000000000000000 then Int64.ofInt n
    else Int64.ofInt (Binary64.ofInt n).truncated) = .ok (Int64.ofInt (min n 0x7FFFFFFFFFFFFFFF))
  split
  · rw [Int.min_eq_left (by omega)]
  · rw [Binary64.truncated_ofInt (by omega) upper, Int.min_eq_right (by omega)]

/-- Of texts that write an integer it takes those that write one of its range. -/
theorem fromValue_int64_string (spells : Spells n.val s) :
    (fromValue (.string s) : Except ScriptError Int64) =
      if n.val < 0x8000000000000000 then .ok (Int64.ofInt n.val)
      else .error (.typeMismatch "integer" (.string s)) := by
  have lower := n.property.1
  simp only [fromValue, spells.trim, readInt64?_written, lower, true_and]
  by_cases inside : n.val < 0x8000000000000000
  · rw [if_pos inside, if_pos inside]
  · rw [if_neg inside, if_neg inside]

/-- An unsigned parameter refuses what a signed one makes a negative integer of. -/
theorem fromValue_uint64_of_ok (made : fromValue value = .ok m) :
    (fromValue value : Except ScriptError UInt64) =
      if m.toInt < 0 then .error (.typeMismatch "unsigned integer" value) else .ok m.toUInt64 := by
  show (fromValue value >>= fun m : Int64 => if m < 0 then
    .error (.typeMismatch "unsigned integer" value) else .ok m.toUInt64) = _
  rw [made]
  exact if_congr Int64.lt_iff_toInt_lt rfl rfl

/-- It refuses what a signed one refuses, in the same words. -/
theorem fromValue_uint64_of_error {error : ScriptError}
    (refused : (fromValue value : Except ScriptError Int64) = .error error) :
    (fromValue value : Except ScriptError UInt64) = .error error := by
  show (fromValue value >>= fun m : Int64 => if m < 0 then
    .error (.typeMismatch "unsigned integer" value) else .ok m.toUInt64) = _
  rw [refused]
  rfl

/-- How an integer arrives that both parameters can hold: as it is, unless it is negative and must
not be. -/
structure Arrives (n : Int) (value : Value) : Prop where
  signed : ∃ m : Int64, m.toInt = n ∧ fromValue value = .ok m
  unsigned : 0 ≤ n → ∃ m : UInt64, (m.toNat : Int) = n ∧ fromValue value = .ok m
  negative : n < 0 →
    (fromValue value : Except ScriptError UInt64) = .error (.typeMismatch "unsigned integer" value)

theorem Arrives.of_int64 (made : fromValue value = .ok m) : Arrives m.toInt value where
  signed := ⟨m, rfl, made⟩
  unsigned natural := by
    have held : 0 ≤ m := Int64.le_iff_toInt_le.2 natural
    refine ⟨m.toUInt64, ?_, ?_⟩
    · rw [Int64.toNat_toUInt64_of_le held, Int64.cast_toNatClampNeg m held]
    · rw [fromValue_uint64_of_ok made, if_neg (Int.not_lt.2 natural)]
  negative below := by rw [fromValue_uint64_of_ok made, if_pos below]

end Conversion

/-- What integer parameters make of every integer that a value can hold, and of every text that
writes it. An integer of the signed range arrives in either form. One above it is refused as a text,
and taken for the end of the range as a number. -/
theorem integers_convert {n : Whole} {s : String} (spells : Spells n.val s) :
    (n.val < 0x8000000000000000 →
      Arrives n.val (.number (.whole n)) ∧ Arrives n.val (.string s)) ∧
    (0x8000000000000000 ≤ n.val →
      Arrives 0x7FFFFFFFFFFFFFFF (.number (.whole n)) ∧
        (fromValue (.string s) : Except ScriptError Int64) =
          .error (.typeMismatch "integer" (.string s)) ∧
        (fromValue (.string s) : Except ScriptError UInt64) =
          .error (.typeMismatch "integer" (.string s))) := by
  have number := fromValue_int64_number n
  have text := fromValue_int64_string spells
  refine ⟨fun inside => ?_, fun outside => ?_⟩
  · have same : (Int64.ofInt n.val).toInt = n.val :=
      Int64.toInt_ofInt_of_le n.property.1 inside
    rw [Int.min_eq_left (by omega)] at number
    rw [if_pos inside] at text
    exact ⟨same ▸ .of_int64 number, same ▸ .of_int64 text⟩
  · rw [Int.min_eq_right (by omega)] at number
    rw [if_neg (by omega)] at text
    exact ⟨.of_int64 number, text, fromValue_uint64_of_error text⟩

/-- The range ends between these two: the last integer below its end, and the first above it as a
text between blanks. -/
theorem integers_convert_at_end :
    Spells 9223372036854775807 " 9223372036854775807\n" ∧
      Arrives 9223372036854775807 (.string " 9223372036854775807\n") ∧
      Spells 9223372036854775808 "\t9223372036854775808 " ∧
      Arrives 9223372036854775807 (.number (.whole ⟨9223372036854775808, by decide⟩)) ∧
      (fromValue (.string "\t9223372036854775808 ") : Except ScriptError UInt64) =
        .error (.typeMismatch "integer" (.string "\t9223372036854775808 ")) := by
  have last : Spells 9223372036854775807 " 9223372036854775807\n" :=
    ⟨[' '], ['\n'], by decide, by decide, by decide +kernel⟩
  have first : Spells 9223372036854775808 "\t9223372036854775808 " :=
    ⟨['\t'], [' '], by decide, by decide, by decide +kernel⟩
  obtain ⟨inside, -⟩ := integers_convert (n := ⟨9223372036854775807, by decide⟩) last
  obtain ⟨-, outside⟩ := integers_convert (n := ⟨9223372036854775808, by decide⟩) first
  exact ⟨last, (inside (by decide)).2, first, (outside (by decide)).1, (outside (by decide)).2.2⟩

/-- The largest integer that a value can hold: an unsigned parameter could take it, but takes a
smaller one for it as a number and refuses it as a text, and a signed parameter does not refuse
it as a number. -/
theorem largest_integer_is_not_kept :
    (fromValue (.number (.whole ⟨18446744073709551615, by decide⟩)) : Except ScriptError UInt64) =
        .ok 9223372036854775807 ∧
      (fromValue (.string "18446744073709551615") : Except ScriptError UInt64) =
        .error (.typeMismatch "integer" (.string "18446744073709551615")) ∧
      (fromValue (.number (.whole ⟨18446744073709551615, by decide⟩)) : Except ScriptError Int64) =
        .ok 9223372036854775807 := by
  have number := fromValue_int64_number ⟨18446744073709551615, by decide⟩
  have text := fromValue_int64_string (n := ⟨18446744073709551615, by decide⟩)
    (s := "18446744073709551615") ⟨[], [], by decide, by decide, by decide +kernel⟩
  exact ⟨fromValue_uint64_of_ok number, fromValue_uint64_of_error text, number⟩

end ScriptHost
