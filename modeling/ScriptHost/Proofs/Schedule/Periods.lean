import Mathlib.Algebra.Ring.Nat
import Mathlib.Data.List.DropRight
import ScriptHost.Schedule.Timing
/-!
# Periods as bounded sums

A period is the sum of the tokens of its text: runs of digits that a unit follows. A text can hold
other letters and digits anywhere, and it can hold numbers that are far too large, so what is
worked out in 64 bits may fail to fit in three places: a number, its product with the unit, and the
total so far. All that is added is natural and no unit is less than a millisecond, so each of these
is at most the sum. A text whose sum fits is never refused on the way, and one whose sum does not
fit may be refused early but is refused.

**What is said.** `Period.tokenAt?` looks for a token at one place of a text, and `Period.found`
does so at each place. `Period.readWithin` works a period out with every intermediate value
checked.

**Results.**
* `Period.tokenAt?_eq_some_iff`: a token is a run of digits, as long as possible, right before a
  unit.
* `Period.tokens_eq_found`: reading a text once from its start finds the tokens that are there.
* `Period.readWithin_eq`: nothing is refused on the way that would not be refused at the end.
* `Period.reads_exact_sum`: what is read of a text is its sum, if that is a period.
-/
namespace ScriptHost.Period

/-! ## Tokens by their places -/

/-- A run of digits and the milliseconds of the unit behind it, unless one of them is missing. -/
def token? (run : List Char) (c : Char) : Option (List Char × Nat) :=
  (unit? c).bind fun unit => if run = [] then none else some (run, unit)

/-- The token whose unit is the character at a place of a text; its digits are all that stand just
before it. -/
def tokenAt? (text : List Char) (place : Nat) : Option (List Char × Nat) :=
  text[place]?.bind (token? ((text.take place).rtakeWhile Text.isDecimalDigit))

def found (text : List Char) : List (List Char × Nat) :=
  (List.range text.length).filterMap (tokenAt? text)

def total (text : List Char) : Nat :=
  ((found text).map fun (digits, unit) => decimalValue digits * unit).sum

def longest : Nat := 0x7FFFFFFFFFFFFFFF

section

variable {text run front rest : List Char} {place unit : Nat} {c : Char}

theorem token?_eq_some_iff {token : List Char × Nat} :
    token? run c = some token ↔ token.1 = run ∧ run ≠ [] ∧ unit? c = some token.2 := by
  obtain ⟨digits, unit⟩ := token
  cases isUnit : unit? c with
  | none => simp [token?, isUnit]
  | some u => by_cases none : run = [] <;> simp [token?, isUnit, none, eq_comm]

/-- Where a token is: its digits start behind something else, and its unit follows them. -/
theorem tokenAt?_eq_some_iff : tokenAt? text place = some (run, unit) ↔
    ∃ front c behind, text = front ++ run ++ c :: behind ∧ place = (front ++ run).length ∧
      run ≠ [] ∧ (∀ d ∈ run, Text.isDecimalDigit d) ∧
      (∀ d ∈ front.getLast?, Text.isDecimalDigit d = false) ∧ unit? c = some unit := by
  simp only [tokenAt?, Option.bind_eq_some_iff, token?_eq_some_iff]
  constructor
  · rintro ⟨c, at_, digits, some, isUnit⟩
    obtain ⟨lt, get⟩ := List.getElem?_eq_some_iff.1 at_
    have cut : (text.take place).rdropWhile Text.isDecimalDigit ++ run = text.take place := by
      rw [digits, List.rdropWhile_append_rtakeWhile]
    refine ⟨(text.take place).rdropWhile Text.isDecimalDigit, c, text.drop (place + 1), ?_, ?_,
      digits ▸ some, fun d mem => ?_, fun d last => ?_, isUnit⟩
    · rw [cut, ← get, ← List.drop_eq_getElem_cons lt, List.take_append_drop]
    · rw [cut, List.length_take, Nat.min_eq_left (by omega)]
    · exact List.mem_rtakeWhile_imp (digits ▸ mem)
    · obtain ⟨some, rfl⟩ := List.mem_getLast?_eq_getLast last
      simpa using List.rdropWhile_last_not Text.isDecimalDigit (text.take place) some
  · rintro ⟨front, c, behind, rfl, rfl, some, digits, before, isUnit⟩
    have cut : (front ++ run).rtakeWhile Text.isDecimalDigit = run := by
      rw [List.rtakeWhile, List.reverse_append,
        List.takeWhile_append_of_pos (by simpa using digits)]
      cases last : front.reverse with
      | nil => simp
      | cons d others =>
        have notDigit := before d (by rw [← List.head?_reverse, last]; rfl)
        simp [notDigit]
    have before : (front ++ run ++ c :: behind).take (front ++ run).length = front ++ run :=
      List.take_left
    exact ⟨c, by simp, by rw [before, cut], by rwa [before, cut], isUnit⟩

theorem unit?_of_isDecimalDigit (digit : Text.isDecimalDigit c) : unit? c = none := by
  have letters : ['d', 'D', 'h', 'H', 'm', 'M', 's', 'S', 'ſ'].all
      fun d => !Text.isDecimalDigit d := by
    decide +kernel
  have other : c ∉ ['d', 'D', 'h', 'H', 'm', 'M', 's', 'S', 'ſ'] := by
    intro mem
    have notDigit := List.all_eq_true.1 letters c mem
    rw [digit] at notDigit
    cases notDigit
  simp only [List.mem_cons, List.not_mem_nil, or_false, not_or] at other
  simp [unit?, other]

theorem unit?_pos (isUnit : unit? c = some unit) : 0 < unit := by
  unfold unit? at isUnit
  grind

theorem tokens_cons (run : List Char) (c : Char) (rest : List Char) : tokens run (c :: rest) =
    if Text.isDecimalDigit c then tokens (c :: run) rest
    else (token? run.reverse c).toList ++ tokens [] rest := by
  by_cases digit : Text.isDecimalDigit c
  · simp [tokens, digit]
  · cases run <;> cases isUnit : unit? c <;> simp [tokens, token?, digit, isUnit]

/-- What is found in the places of a list is found in the first or in one behind it. -/
theorem filterMap_range_succ {α : Type} (at_ : Nat → Option α) (n : Nat) :
    (List.range (n + 1)).filterMap at_ =
      (at_ 0).toList ++ (List.range n).filterMap fun place => at_ (place + 1) := by
  rw [List.range_succ_eq_map]
  cases first : at_ 0 <;> simp [first]

/-- Reading on finds the tokens whose units are still to come. -/
theorem tokens_eq_places (front rest : List Char) :
    tokens (front.rtakeWhile Text.isDecimalDigit).reverse rest =
      (List.range rest.length).filterMap
        fun place => tokenAt? (front ++ rest) (front.length + place) := by
  induction rest generalizing front with
  | nil => rfl
  | cons c rest ih =>
    have here : tokenAt? (front ++ c :: rest) (front.length + 0) =
        token? (front.rtakeWhile Text.isDecimalDigit) c := by
      simp [tokenAt?]
    have later : (fun place => tokenAt? (front ++ c :: rest) (front.length + (place + 1))) =
        fun place => tokenAt? (front ++ [c] ++ rest) ((front ++ [c]).length + place) := by
      funext place
      simp [Nat.add_comm 1, Nat.add_assoc]
    rw [List.length_cons, filterMap_range_succ, here, later, ← ih, tokens_cons]
    by_cases digit : Text.isDecimalDigit c
    · rw [if_pos digit, List.rtakeWhile_concat_pos _ _ _ digit, List.reverse_concat, token?,
        unit?_of_isDecimalDigit digit]
      rfl
    · rw [if_neg digit, List.rtakeWhile_concat_neg _ _ _ digit, List.reverse_reverse]
      rfl

/-- Reading a text once from its start finds the tokens that are there. -/
theorem tokens_eq_found (text : List Char) : tokens [] text = found text := by
  simpa [found] using tokens_eq_places [] text

end

/-! ## Working out a period -/

/-- A value that fits 64 bits. -/
def fitted? (n : Nat) : Option Nat := if n < 2 ^ 64 then some n else none

/-- The total with some more tokens, as it is worked out: a digit that is none in ASCII, a number, a
product or a sum that does not fit ends it. -/
def addWithin? (total : Nat) : List (List Char × Nat) → Option Nat
  | [] => some total
  | (digits, unit) :: rest =>
    if digits.all Char.isDigit then do
      let n ← fitted? (decimalValue digits)
      let millis ← fitted? (n * unit)
      let total ← fitted? (total + millis)
      addWithin? total rest
    else none

/-- The period that a total makes. -/
def ofTotal (text : String) (total : Nat) : Except TimingError Nat :=
  if total = 0 then .error (.emptyPeriod text)
  else if total ≤ longest then .ok total
  else .error (.periodOutOfRange text)

/-- The period of a text, as it is worked out. -/
def readWithin (text : String) : Except TimingError Nat :=
  match addWithin? 0 (tokens [] text.toList) with
  | none => .error (.periodOutOfRange text)
  | some total => ofTotal text total

section

variable {total n : Nat} {digits : List Char} {unit : Nat} {rest : List (List Char × Nat)}

theorem fitted?_of_le {m : Nat} (le : n ≤ m) (fits : m < 2 ^ 64) : fitted? n = some n :=
  if_pos (Nat.lt_of_le_of_lt le fits)

/-- Of a number, its product and the total with it, the last is the largest: it decides. -/
theorem addWithin?_cons (ascii : digits.all Char.isDigit) (positive : 0 < unit) :
    addWithin? total ((digits, unit) :: rest) =
      (fitted? (total + decimalValue digits * unit)).bind (addWithin? · rest) := by
  have product : decimalValue digits ≤ decimalValue digits * unit :=
    Nat.le_mul_of_pos_right _ positive
  have sum : decimalValue digits * unit ≤ total + decimalValue digits * unit := Nat.le_add_left ..
  rw [addWithin?, if_pos ascii]
  by_cases fits : total + decimalValue digits * unit < 2 ^ 64
  · rw [fitted?_of_le (Nat.le_trans product sum) fits, Option.bind_eq_bind, Option.bind_some,
      fitted?_of_le sum fits, Option.bind_some]
  · have refused : fitted? (total + decimalValue digits * unit) = none := if_neg fits
    rw [refused, Option.bind_none]
    unfold fitted?
    split
    · rw [Option.bind_eq_bind, Option.bind_some]
      split
      · rw [Option.bind_some, if_neg fits]
        rfl
      · rfl
    · rfl

/-- What is worked out fits all the way exactly if it does in the end. -/
theorem addWithin?_eq {found : List (List Char × Nat)} (units : ∀ token ∈ found, 0 < token.2)
    (fits : total < 2 ^ 64) : addWithin? total found =
      (found.mapM value?).bind fun values => fitted? (total + values.sum) := by
  induction found generalizing total with
  | nil => exact (fitted?_of_le (Nat.le_refl _) fits).symm
  | cons token rest ih =>
    obtain ⟨digits, unit⟩ := token
    by_cases ascii : digits.all Char.isDigit
    · have value : value? (digits, unit) = some (decimalValue digits * unit) := if_pos ascii
      rw [addWithin?_cons ascii (units _ (.head _)), List.mapM_cons, value]
      by_cases fits' : total + decimalValue digits * unit < 2 ^ 64
      · rw [fitted?_of_le (Nat.le_refl _) fits', Option.bind_some,
          ih (fun token mem => units token (.tail _ mem)) fits']
        cases rest.mapM value? <;> simp [Nat.add_assoc]
      · have refused : fitted? (total + decimalValue digits * unit) = none := if_neg fits'
        have refusedAll (values : List Nat) :
            fitted? (total + (decimalValue digits * unit + values.sum)) = none :=
          if_neg (by omega)
        rw [refused]
        cases rest.mapM value? <;> simp [refusedAll]
    · have none : value? (digits, unit) = none := if_neg ascii
      rw [addWithin?, if_neg ascii, List.mapM_cons, none]
      rfl

theorem units_found {text : List Char} : ∀ token ∈ found text, 0 < token.2 := by
  intro token mem
  obtain ⟨place, -, at_⟩ := List.mem_filterMap.1 mem
  obtain ⟨_, _, _, -, -, -, -, -, isUnit⟩ := tokenAt?_eq_some_iff.1 at_
  exact unit?_pos isUnit

theorem read_eq (text : String) : read text =
    match (found text.toList).mapM value? with
    | none => .error (.periodOutOfRange text)
    | some values => ofTotal text values.sum := by
  simp only [read, tokens_eq_found, ← List.sum_eq_foldl]
  rfl

/-- Nothing is refused on the way that would not be refused in the end. -/
theorem readWithin_eq (text : String) : readWithin text = read text := by
  rw [readWithin, read_eq, tokens_eq_found, addWithin?_eq units_found (by decide)]
  cases (found text.toList).mapM value? with
  | none => rfl
  | some values =>
    rw [Option.bind_some, Nat.zero_add]
    by_cases fits : values.sum < 2 ^ 64
    · rw [fitted?_of_le (Nat.le_refl _) fits]
    · have long : ¬ values.sum ≤ longest := fun short =>
        fits (Nat.lt_of_le_of_lt short (by decide))
      have refused : fitted? values.sum = none := if_neg fits
      rw [refused]
      exact ((if_neg (by omega)).trans (if_neg long)).symm

end

/-! ## What is read -/

/-- In a text whose digits are those of ASCII all tokens have a value. -/
theorem values_found {text : List Char}
    (ascii : ∀ c ∈ text, Text.isDecimalDigit c → c.isDigit) :
    (found text).mapM value? =
      some ((found text).map fun (digits, unit) => decimalValue digits * unit) := by
  have digits : ∀ token ∈ found text, token.1.all Char.isDigit := by
    intro token mem
    obtain ⟨place, -, at_⟩ := List.mem_filterMap.1 mem
    obtain ⟨front, c, behind, rfl, -, -, digits, -⟩ := tokenAt?_eq_some_iff.1 at_
    exact List.all_eq_true.2 fun d mem => ascii d (by simp [mem]) (digits d mem)
  generalize found text = tokens at digits
  induction tokens with
  | nil => rfl
  | cons token rest ih =>
    have value : value? token = some (decimalValue token.1 * token.2) :=
      if_pos (digits token (.head _))
    rw [List.mapM_cons, value, ih fun token mem => digits token (.tail _ mem)]
    rfl

/-- In a text whose digits are those of ASCII, every number, every product and every total fits 64
bits until a period is read or refused. What is read is the sum of all tokens, if that is not zero
and not longer than the longest period. A text without tokens or with a sum of zero has an empty
period, and any other is out of range. -/
theorem reads_exact_sum {text : String}
    (ascii : ∀ c ∈ text.toList, Text.isDecimalDigit c → c.isDigit) :
    readWithin text = read text ∧
      (∀ millis, read text = .ok millis ↔
        millis = total text.toList ∧ 1 ≤ millis ∧ millis ≤ longest) ∧
      (read text = .error (.emptyPeriod text) ↔
        found text.toList = [] ∨ total text.toList = 0) ∧
      (read text = .error (.periodOutOfRange text) ↔
        ¬ (1 ≤ total text.toList ∧ total text.toList ≤ longest) ∧
          ¬ (found text.toList = [] ∨ total text.toList = 0)) := by
  have empty : found text.toList = [] ∨ total text.toList = 0 ↔ total text.toList = 0 :=
    or_iff_right_of_imp fun none => by rw [total, none]; rfl
  have made : read text = ofTotal text (total text.toList) := by
    rw [read_eq, values_found ascii]
    rfl
  rw [empty, readWithin_eq, made, ofTotal]
  refine ⟨rfl, fun millis => ?_, ?_, ?_⟩
  · split
    · grind
    · split <;> grind
  · split
    · grind
    · split <;> grind
  · split
    · grind
    · split <;> grind

/-- Digits without a unit, letters without digits, both cases, a long s and leading zeros. -/
theorem reads_exact_sum_scattered :
    (∀ c ∈ "1h 30 x7d0m s 002ſ5".toList, Text.isDecimalDigit c → c.isDigit) ∧
      read "1h 30 x7d0m s 002ſ5" = .ok 608402000 := by
  have all : "1h 30 x7d0m s 002ſ5".toList.all fun c => !Text.isDecimalDigit c || c.isDigit := by
    decide +kernel
  have ascii : ∀ c ∈ "1h 30 x7d0m s 002ſ5".toList, Text.isDecimalDigit c → c.isDigit := by
    intro c mem digit
    simpa [digit] using List.all_eq_true.1 all c mem
  obtain ⟨-, read, -⟩ := reads_exact_sum ascii
  exact ⟨ascii, (read 608402000).2 (by decide +kernel)⟩

end ScriptHost.Period
