import ScriptHost.Assembly.Fragment
import ScriptHost.Proofs.Script.Separating
/-!
# Spelling tokens

Every token but a decimal number can be spelled so that it is read back as it was: a word between
angle brackets, whatever else it might be taken for, a text between quotes, an integer in decimal.
A blank keeps each from the next.

**Results.**
* `Scanner.quoted?_quoteChar`, `readInt64?_toString`: a quoted text and a written integer are read
  back.
* `Scanner.scans_spelled`: the spelling of a token is made of that token.
* `Scanner.scans_spelledAll`: spelled one after the other, tokens are read back.
-/
namespace ScriptHost

/-! ## Quoted texts -/

/-- How a character stands in a literal. -/
def quoteChar : Char → List Char
  | '"' => ['\\', '"']
  | '\\' => ['\\', '\\']
  | '\n' => ['\\', 'n']
  | c => [c]

theorem toList_quotedLiteral (text : String) :
    (quotedLiteral text).toList = '"' :: text.toList.flatMap quoteChar ++ ['"'] := by
  simp only [quotedLiteral, String.toList_ofList]
  rfl

theorem quoteChar_cases (c : Char) :
    (quoteChar c = [c] ∧ c ≠ '"' ∧ c ≠ '\\' ∧ c ≠ '\n') ∨
      ∃ d, quoteChar c = ['\\', d] ∧ d ≠ '\n' ∧
        (if d = 'n' then '\n' else if d = 't' then '\t' else d) = c := by
  unfold quoteChar
  split
  · exact .inr ⟨'"', rfl, by decide, by decide⟩
  · exact .inr ⟨'\\', rfl, by decide, by decide⟩
  · exact .inr ⟨'n', rfl, by decide, by decide⟩
  · rename_i c h1 h2 h3
    exact .inl ⟨rfl, h1, h2, h3⟩

/-- Reading a literal gives back the text that it was made of. -/
theorem Scanner.quoted?_quoteChar (text more kept : List Char) (place : Position) :
    ∃ last, quoted? kept place (text.flatMap quoteChar ++ '"' :: more) =
      some (String.ofList (kept.reverse ++ text), ⟨more, last⟩) := by
  induction text generalizing kept place with
  | nil => exact ⟨Cursor.step place '"', by simp [quoted?]⟩
  | cons c rest ih =>
    rw [List.flatMap_cons, List.append_assoc]
    have longer : kept.reverse ++ c :: rest = (c :: kept).reverse ++ rest := by simp
    rcases quoteChar_cases c with ⟨eq, noQuote, noSlash, -⟩ | ⟨d, eq, -, meant⟩
    · obtain ⟨last, eq'⟩ := ih (c :: kept) (Cursor.step place c)
      refine ⟨last, ?_⟩
      rw [eq, longer, ← eq', List.singleton_append, quoted?]
      · exact noQuote
      · exact fun _ _ slash => absurd slash noSlash
      · exact fun slash => absurd slash noSlash
    · obtain ⟨last, eq'⟩ := ih (c :: kept) (Cursor.step (Cursor.step place '\\') d)
      refine ⟨last, ?_⟩
      rw [eq, longer, ← eq', List.cons_append, List.singleton_append, quoted?]
      simp only [meant]

theorem Scanner.scans_quotedLiteral (text : String) :
    Scans (quotedLiteral text).toList [.text text] := by
  have lexeme : Lexeme (.text text) ('"' :: (text.toList.flatMap quoteChar ++ ['"'])) [] := by
    refine lexeme_of_token (by decide) nofun fun place at_ => ?_
    obtain ⟨last, eq⟩ := quoted?_quoteChar text.toList [] [] at_
    refine ⟨last, ?_⟩
    show quotedToken place ⟨_, at_⟩ = _
    rw [quotedToken, eq]
    simp
  rw [toList_quotedLiteral]
  exact .more lexeme (.done rfl)

/-! ## Integers -/

theorem decimalValue_toDigits (n : Nat) : decimalValue (Nat.toDigits 10 n) = n := by
  have same : decimalValue (Nat.toDigits 10 n) = Nat.ofDigitChars 10 (Nat.toDigits 10 n) 0 :=
    Nat.ofDigitChars_eq_foldl.symm
  rw [same, Nat.ofDigitChars_ten_toDigits]

/-- The digits of a natural: there is a first, and no other characters are among them. -/
theorem toDigits_eq_cons (n : Nat) : ∃ c rest, Nat.toDigits 10 n = c :: rest ∧
    c.isDigit = true ∧ rest.all Char.isDigit = true := by
  obtain ⟨c, rest, eq⟩ := List.exists_cons_of_ne_nil (Nat.toDigits_ne_nil (n := n) (b := 10))
  have digits : ∀ d ∈ c :: rest, d.isDigit = true := by
    intro d mem
    rw [← eq] at mem
    exact Nat.isDigit_of_mem_toDigits (by decide) (by decide) mem
  exact ⟨c, rest, eq, digits c (.head _), List.all_eq_true.2 fun d mem => digits d (.tail _ mem)⟩

theorem toList_toString (n : Int) : (toString n).toList =
    if 0 ≤ n then Nat.toDigits 10 n.toNat else '-' :: Nat.toDigits 10 (-n).toNat := by
  rw [Int.toString_eq_repr, Int.repr_eq_if]
  split
  · rw [Nat.repr_eq_ofList_toDigits, String.toList_ofList]
  · simp [Nat.repr_eq_ofList_toDigits]

/-- An integer is written as a run of digits that may start with a minus sign. -/
theorem toString_cases (n : Int) : ∃ c rest, (toString n).toList = c :: rest ∧
    rest.all Char.isDigit = true ∧ readInt? (c :: rest) = some n ∧
    (c.isDigit = true ∨ c = '-' ∧ ∃ d more, rest = d :: more) := by
  rw [toList_toString]
  by_cases natural : 0 ≤ n
  · obtain ⟨c, rest, eq, digit, digits⟩ := toDigits_eq_cons n.toNat
    have value := decimalValue_toDigits n.toNat
    rw [eq] at value
    have noSign : c ≠ '-' ∧ c ≠ '+' := by
      constructor
      all_goals
        rintro rfl
        cases digit
    refine ⟨c, rest, by rw [if_pos natural, eq], digits, ?_, .inl digit⟩
    unfold readInt?
    split
    next signed =>
    split at signed
    · next minus => exact absurd (List.cons.inj minus).1 noSign.1
    · next plus => exact absurd (List.cons.inj plus).1 noSign.2
    · cases signed
      simp [digit, digits, value, Int.toNat_of_nonneg natural]
  · obtain ⟨c, rest, eq, digit, digits⟩ := toDigits_eq_cons (-n).toNat
    have value := decimalValue_toDigits (-n).toNat
    rw [eq] at value
    refine ⟨'-', c :: rest, by rw [if_neg natural, eq], by simp [digit, digits], ?_,
      .inr ⟨rfl, c, rest, rfl⟩⟩
    simp only [readInt?, List.isEmpty_cons, List.all_cons, digit, digits, value]
    simp only [Bool.and_self, Bool.not_true, Bool.or_self, Bool.false_eq_true, if_false, if_true,
      Option.some.injEq]
    omega

theorem readInt64?_toString {n : Int64} {text : List Char} (h : readInt? text = some n.toInt) :
    readInt64? text = some n := by
  have lower := n.le_toInt
  have upper := n.toInt_lt
  simp only [readInt64?, h]
  rw [if_pos (by omega), Int64.ofInt_toInt]

/-! ## Tokens -/

/-- Whether a name can stand between angle brackets. -/
def IsName (name : String) : Prop := name.toList ≠ [] ∧ ∀ c ∈ name.toList, isWordChar c = true

instance (name : String) : Decidable (IsName name) :=
  decidable_of_iff (name.toList ≠ [] ∧ name.toList.all isWordChar = true) (by simp [IsName])

namespace TokenKind

def spelled : TokenKind → List Char
  | word name => '<' :: name.toList ++ ['>']
  | text content => (quotedLiteral content).toList
  | integer n => (toString n.toInt).toList
  | reference name => '&' :: name.toList
  | openBrace => ['\x7b']
  | closeBrace => ['\x7d']
  | equals => ['=']
  | decimal _ | endOfSource => []

def Spellable : TokenKind → Prop
  | word name | reference name => IsName name
  | text _ | integer _ | openBrace | closeBrace | equals => True
  | decimal _ | endOfSource => False

def spelledAll : List TokenKind → List Char
  | [] => []
  | kind :: rest => kind.spelled ++ ' ' :: spelledAll rest

end TokenKind

namespace Scanner

open TokenKind

theorem scans_word {name : String} (isName : IsName name) :
    Scans (TokenKind.word name).spelled [.word name] := by
  obtain ⟨some, word⟩ := isName
  obtain ⟨c, rest, eq⟩ := List.exists_cons_of_ne_nil some
  have cut : (name.toList ++ ['>']).takeWhile isWordChar = name.toList ∧
      (name.toList ++ ['>']).dropWhile isWordChar = ['>'] := by
    rw [List.takeWhile_append_of_pos word, List.dropWhile_append_of_pos word]
    have stop : isWordChar '>' = false := by decide
    simp [stop]
  have lexeme : Lexeme (.word name) ('<' :: (name.toList ++ ['>'])) [] := by
    refine lexeme_of_token (by decide) nofun fun place at_ => ?_
    refine ⟨Cursor.step (Cursor.walk at_ name.toList) '>', ?_⟩
    unfold token
    simp only [Cursor.span, cut.1, cut.2]
    rw [if_neg (by decide), if_neg (by decide), if_neg (by decide), if_neg (by decide),
      if_neg (by decide), if_neg (by decide), if_pos trivial]
    split
    · next closed =>
      cases closed
      rw [String.ofList_toList]
    · next no => exact absurd rfl (no c rest [] eq)
  exact .more lexeme (.done rfl)

theorem scans_reference {name : String} (isName : IsName name) :
    Scans (TokenKind.reference name).spelled [.reference name] := by
  obtain ⟨some, word⟩ := isName
  have cut : name.toList.takeWhile isWordChar = name.toList ∧
      name.toList.dropWhile isWordChar = [] := by
    rw [List.takeWhile_eq_self_iff.2 word, List.dropWhile_eq_nil_iff.2 word]
    exact ⟨rfl, rfl⟩
  have lexeme : Lexeme (.reference name) ('&' :: name.toList) [] := by
    refine lexeme_of_token (by decide) nofun fun place at_ => ?_
    refine ⟨Cursor.walk at_ name.toList, ?_⟩
    simp only [token, Cursor.span, cut.1, cut.2, List.isEmpty_iff, some, String.ofList_toList]
    rfl
  exact .more lexeme (.done rfl)

theorem scans_integer (n : Int64) : Scans (TokenKind.integer n).spelled [.integer n] := by
  obtain ⟨c, rest, eq, digits, value, first⟩ := toString_cases n.toInt
  have run : ∀ d ∈ rest, (d.isDigit || d == '.') = true := by
    intro d mem
    rw [List.all_eq_true.1 digits d mem]
    rfl
  have cut : rest.takeWhile (fun d => d.isDigit || d == '.') = rest ∧
      rest.dropWhile (fun d => d.isDigit || d == '.') = [] := by
    rw [List.takeWhile_eq_self_iff.2 run, List.dropWhile_eq_nil_iff.2 run]
    exact ⟨rfl, rfl⟩
  have starts : startsNumber c rest = true := by
    rcases first with digit | ⟨rfl, d, more, rfl⟩
    · simp [startsNumber, digit]
    · simp only [List.all_cons, Bool.and_eq_true] at digits
      simp [startsNumber, digits.1]
  have noPoint : (c :: rest).contains '.' = false := by
    have notFirst : c ≠ '.' := by
      rintro rfl
      rcases first with digit | ⟨minus, -⟩
      · cases digit
      · cases minus
    have notRest : '.' ∉ rest := fun mem => by cases List.all_eq_true.1 digits '.' mem
    simp [notFirst.symm, notRest]
  have other {d : Char} (noDigit : d.isDigit = false) (noMinus : d ≠ '-') : c ≠ d := by
    rintro rfl
    rcases first with digit | ⟨minus, -⟩
    · rw [noDigit] at digit
      cases digit
    · exact noMinus minus
  have solid : Text.isBlank c = false := by
    cases blank : Text.isBlank c with
    | false => rfl
    | true =>
      have noNumber : (c.isDigit || c == '-') = false :=
        Text.of_isBlank (p := fun c => c.isDigit || c == '-') (by decide +kernel) blank
      rcases first with digit | ⟨rfl, -⟩
      · simp [digit] at noNumber
      · cases noNumber
  have lexeme : Lexeme (.integer n) (c :: rest) [] := by
    refine lexeme_of_token solid (by simp) fun place at_ => ?_
    refine ⟨Cursor.walk at_ rest, ?_⟩
    unfold token
    simp only [Cursor.span, cut.1, cut.2]
    rw [if_neg (other (by decide) (by decide)), if_neg (other (by decide) (by decide)),
      if_neg (other (by decide) (by decide)), if_neg (other (by decide) (by decide)),
      if_neg (other (by decide) (by decide)), if_neg (other (by decide) (by decide)),
      if_neg (other (by decide) (by decide)), if_pos starts]
    rw [number?, if_neg (by rw [noPoint]; decide), readInt64?_toString value]
    rfl
  rw [TokenKind.spelled, eq]
  exact .more lexeme (.done rfl)

theorem scans_spelled {kind : TokenKind} (h : kind.Spellable) : Scans kind.spelled [kind] := by
  cases kind with
  | word name => exact scans_word h
  | text content => exact scans_quotedLiteral content
  | integer n => exact scans_integer n
  | decimal x => exact h.elim
  | reference name => exact scans_reference h
  | openBrace => exact .more (lexeme_openBrace []) (.done rfl)
  | closeBrace =>
    have lexeme : Lexeme .closeBrace ['\x7d'] [] :=
      lexeme_of_token (by decide) nofun fun _ after => ⟨after, rfl⟩
    exact .more lexeme (.done rfl)
  | equals => exact .more (lexeme_equals []) (.done rfl)
  | endOfSource => exact h.elim

/-- Tokens that are spelled one after the other are read back. -/
theorem scans_spelledAll {kinds : List TokenKind} (h : ∀ kind ∈ kinds, kind.Spellable) :
    Scans (spelledAll kinds) kinds := by
  induction kinds with
  | nil => exact .done rfl
  | cons kind rest ih =>
    have scans := ih fun other mem => h other (.tail _ mem)
    exact (scans_spelled (h kind (.head _))).append_blank scans (by decide)

end Scanner
end ScriptHost
