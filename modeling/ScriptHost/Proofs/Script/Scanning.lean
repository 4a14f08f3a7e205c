import Mathlib.Data.List.TakeWhile
import ScriptHost.Script.Token
/-!
# Scanning texts

`Scanner.Scans text kinds`: the text is made of tokens of these kinds. Places play no part in
it. A token is the same in a longer text if a blank or nothing follows the shorter one; no token
goes on over a blank except a quoted one, so the shorter text has to close its quotes for the
converse.

**Results.**
* `Scanner.token_agrees`: a token before a blank does not depend on what follows.
* `Scanner.all_ok_iff`: scanning works exactly if the text is made of tokens, and then yields
  their kinds.
-/
namespace ScriptHost

theorem bind_eq_ok {ε α β : Type} {x : Except ε α} {f : α → Except ε β} {b : β} :
    x >>= f = .ok b ↔ ∃ a, x = .ok a ∧ f a = .ok b := by
  cases x with
  | error _ => simp [Bind.bind, Except.bind]
  | ok a => simp [Bind.bind, Except.bind]

theorem ok_bind {ε α β : Type} {a : α} {f : α → Except ε β} : Except.ok a >>= f = f a := rfl

theorem map_eq_ok {ε α β : Type} {x : Except ε α} {f : α → β} {b : β} :
    x.map f = .ok b ↔ ∃ a, x = .ok a ∧ f a = b := by
  cases x <;> simp [Except.map]

theorem pure_eq_ok {ε α : Type} {a b : α} : (pure a : Except ε α) = .ok b ↔ a = b := by
  simp [Pure.pure, Except.pure]

theorem toOption_eq_some {ε α : Type} {x : Except ε α} {a : α} :
    x.toOption = some a ↔ x = .ok a := by
  cases x <;> simp [Except.toOption]

theorem toOption_eq_none {ε α : Type} {x : Except ε α} {e : ε} (h : x = .error e) :
    x.toOption = none := by
  rw [h]
  rfl

/-! ## Blanks -/

/-- The code points of the blank characters. -/
def Text.blankCodes : List Nat :=
  List.range' 9 5 ++ List.range' 0x2000 11 ++
    [0x20, 0x85, 0xA0, 0x1680, 0x2028, 0x2029, 0x202F, 0x205F, 0x3000]

theorem Text.mem_blankCodes {c : Char} (h : isBlank c) : c.toNat ∈ blankCodes := by
  simp only [isBlank, Bool.or_eq_true, Bool.and_eq_true, decide_eq_true_eq, beq_iff_eq] at h
  simp only [blankCodes, List.mem_append, List.mem_range'_1, List.mem_cons, List.not_mem_nil]
  omega

/-- A class of characters that holds none of the blank code points holds no blank. -/
theorem Text.of_isBlank {p : Char → Bool} (h : ∀ n ∈ blankCodes, p (Char.ofNat n) = false)
    {c : Char} (blank : isBlank c) : p c = false := by
  have := h _ (mem_blankCodes blank)
  rwa [Char.ofNat_toNat] at this

theorem Text.allBlank_cons {c : Char} {rest : List Char} :
    allBlank (c :: rest) ↔ isBlank c ∧ allBlank rest := by
  simp [allBlank]

theorem Text.allBlank_append {front more : List Char} :
    allBlank (front ++ more) ↔ allBlank front ∧ allBlank more := by
  rw [allBlank, List.all_append, Bool.and_eq_true]
  rfl

theorem Text.allBlank_concat {front : List Char} {c : Char} :
    allBlank (front ++ [c]) ↔ allBlank front ∧ isBlank c := by
  rw [allBlank_append, allBlank_cons]
  simp [allBlank]

theorem isWordChar_of_isBlank {c : Char} : Text.isBlank c → isWordChar c = false :=
  Text.of_isBlank (by decide +kernel)

theorem isBlank_of_isWordChar {c : Char} (h : isWordChar c) : Text.isBlank c = false := by
  cases blank : Text.isBlank c with
  | false => rfl
  | true =>
    rw [isWordChar_of_isBlank blank] at h
    cases h

namespace Scanner

/-! ## Quotes -/

/-- Where the next character stands: outside quotes, or inside, `true` right after a backslash. -/
def quoteStep : Option Bool → Char → Option Bool
  | none, c => if c = '"' then some false else none
  | some true, _ => some false
  | some false, c => if c = '\\' then some true else if c = '"' then none else some false

def quoting (start : Option Bool) (text : List Char) : Option Bool := text.foldl quoteStep start

/-- Whether a text closes the quotes that it opens. -/
def Closes (text : List Char) : Prop := quoting none text = none

@[simp] theorem quoting_nil (start : Option Bool) : quoting start [] = start := rfl

@[simp] theorem quoting_cons (start : Option Bool) (c : Char) (rest : List Char) :
    quoting start (c :: rest) = quoting (quoteStep start c) rest := rfl

theorem quoting_append (start : Option Bool) (front more : List Char) :
    quoting start (front ++ more) = quoting (quoting start front) more := List.foldl_append

theorem Closes.append {front more : List Char} (h : Closes front) (h' : Closes more) :
    Closes (front ++ more) := by
  unfold Closes
  rw [quoting_append, h]
  exact h'

theorem closes_of_plain {text : List Char} (h : '"' ∉ text) : Closes text := by
  induction text with
  | nil => rfl
  | cons c rest ih =>
    simp only [List.mem_cons, not_or] at h
    unfold Closes
    rw [quoting_cons, quoteStep, if_neg (Ne.symm h.1)]
    exact ih h.2

theorem quoting_dropWhile {p : Char → Bool} (noQuote : p '"' = false) (text : List Char) :
    quoting none (text.dropWhile p) = quoting none text := by
  induction text with
  | nil => rfl
  | cons c rest ih =>
    rw [List.dropWhile_cons]
    split
    · rename_i taken
      have : c ≠ '"' := by
        rintro rfl
        simp [noQuote] at taken
      rw [ih, quoting_cons, quoteStep, if_neg this]
    · rfl

theorem not_isBlank_quote : Text.isBlank '"' = false := by decide

theorem closes_of_blank {text : List Char} (h : Text.allBlank text) : Closes text := by
  refine closes_of_plain fun mem => ?_
  have : Text.isBlank '"' = true := List.all_eq_true.1 h _ mem
  rw [not_isBlank_quote] at this
  cases this

/-- A backslash inside quotes always takes a character along. -/
theorem ne_slash {c : Char} {rest : List Char}
    (notEscape : ∀ d others, c = '\\' → rest = d :: others → False)
    (notEnd : c = '\\' → rest = [] → False) : c ≠ '\\' := by
  intro escape
  cases rest with
  | nil => exact notEnd escape rfl
  | cons d others => exact notEscape d others escape rfl

theorem Closes.of_append_blanks {text blanks : List Char} (h : Closes (text ++ blanks))
    (isBlank : Text.allBlank blanks) : Closes text := by
  unfold Closes at *
  rw [quoting_append] at h
  generalize quoting none text = start at *
  induction blanks generalizing start with
  | nil => exact h
  | cons c rest ih =>
    obtain ⟨first, rest⟩ := Text.allBlank_cons.1 isBlank
    have notQuote : c ≠ '"' := by
      rintro rfl
      rw [not_isBlank_quote] at first
      cases first
    have inside := ih rest _ h
    cases start with
    | none => rfl
    | some escaped =>
      cases escaped with
      | true => cases inside
      | false =>
        rw [quoteStep, if_neg notQuote] at inside
        split at inside <;> cases inside

/-- Reading a quoted text ends behind the quote that closes it. -/
theorem quoted?_quoting {kept text : List Char} {place : Position} {content : String}
    {behind : Cursor} (h : quoted? kept place text = some (content, behind)) :
    quoting (some false) text = quoting none behind.rest := by
  fun_induction quoted? kept place text with
  | case1 | case4 => cases h
  | case2 =>
    cases h
    rfl
  | case3 kept place c rest meant ih => exact ih h
  | case5 kept place c rest notQuote notEscape notEnd ih =>
    rw [quoting_cons, quoteStep, if_neg (ne_slash notEscape notEnd), if_neg notQuote]
    exact ih h

theorem quoted?_of_closed (kept : List Char) (place : Position) (text : List Char)
    (h : quoting (some false) text = none) :
    ∃ content behind, quoted? kept place text = some (content, behind) := by
  fun_induction quoted? kept place text with
  | case1 => cases h
  | case2 => exact ⟨_, _, rfl⟩
  | case3 kept place c rest meant ih => exact ih h
  | case4 => cases h
  | case5 kept place c rest notQuote notEscape notEnd ih =>
    rw [quoting_cons, quoteStep, if_neg (ne_slash notEscape notEnd), if_neg notQuote] at h
    exact ih h

/-- A token closes the quotes that it opens. -/
theorem token_quoting {place : Position} {c : Char} {after behind : Cursor} {kind : TokenKind}
    (h : token place c after = .ok (kind, behind)) :
    quoting none (c :: after.rest) = quoting none behind.rest := by
  have words := quoting_dropWhile (p := isWordChar) (by decide) after.rest
  have digits := quoting_dropWhile (p := fun d => d.isDigit || d == '.') (by decide) after.rest
  have quotes {place : Position} {text : List Char} {content : String} :
      quoted? [] place text = some (content, behind) →
        quoting (some false) text = quoting none behind.rest := quoted?_quoting
  have outside (d : Char) (rest : List Char) : quoting none (d :: rest) =
      if d = '"' then quoting (some false) rest else quoting none rest := by
    rw [quoting_cons, quoteStep]
    split <;> rfl
  simp only [token, quotedToken, Cursor.span, refuse] at h
  grind

theorem quoted?_append {kept text : List Char} {place : Position} {content : String}
    {behind : Cursor} (h : quoted? kept place text = some (content, behind)) (more : List Char)
    (place' : Position) :
    ∃ at', quoted? kept place' (text ++ more) = some (content, ⟨behind.rest ++ more, at'⟩) := by
  fun_induction quoted? kept place text generalizing place' with
  | case1 => cases h
  | case2 => 
    cases h
    exact ⟨_, rfl⟩
  | case3 kept place c rest meant ih =>
    obtain ⟨at', eq⟩ := ih h (Cursor.step (Cursor.step place' '\\') c)
    exact ⟨at', eq⟩
  | case4 => cases h
  | case5 kept place c rest notQuote notEscape notEnd ih =>
    obtain ⟨at', eq⟩ := ih h (Cursor.step place' c)
    refine ⟨at', ?_⟩
    have longer : c = '\\' → rest ++ more ≠ [] ∧ ∀ d others, rest ++
        more = d :: others → False := by
      intro escape
      cases rest with
      | nil => exact absurd rfl (notEnd escape)
      | cons d others => exact (notEscape d others escape rfl).elim
    rw [List.cons_append, quoted?]
    · exact eq
    · exact notQuote
    · exact fun d others escape eq => (longer escape).2 d others eq
    · exact fun escape eq => (longer escape).1 eq

/-! ## One token -/

theorem token_kind {place : Position} {c : Char} {after behind : Cursor} {kind : TokenKind}
    (h : token place c after = .ok (kind, behind)) : kind ≠ .endOfSource := by
  have numbers {run : List Char} : number? run ≠ some .endOfSource := by
    unfold number?
    split <;> simp
  simp only [token, quotedToken, Cursor.span, refuse] at h
  grind

/-- Whether a text can be told from what stands before it by where it starts: with a blank, or
nowhere. -/
def Parted (more : List Char) : Prop := ∀ d ∈ more.head?, Text.isBlank d

theorem parted_nil : Parted [] := by simp [Parted]

theorem parted_cons {d : Char} (isBlank : Text.isBlank d) (rest : List Char) :
    Parted (d :: rest) := by
  simpa [Parted] using isBlank

theorem Parted.takeWhile {more : List Char} (parted : Parted more) {p : Char → Bool}
    (stop : ∀ {d}, Text.isBlank d → p d = false) (text : List Char) :
    (text ++ more).takeWhile p = text.takeWhile p ∧
      (text ++ more).dropWhile p = text.dropWhile p ++ more := by
  induction text with
  | nil =>
    cases more with
    | nil => simp
    | cons d others =>
      have : p d = false := stop (parted d rfl)
      simp [this]
  | cons c rest ih =>
    by_cases taken : p c
    · simp [taken, ih]
    · simp [taken]

theorem Parted.head? {more : List Char} (parted : Parted more) {c : Char}
    (solid : Text.isBlank c = false) {text : List Char} (h : text.head? ≠ some c) :
    (text ++ more).head? ≠ some c := by
  cases text with
  | cons d others => exact h
  | nil =>
    intro starts
    have : Text.isBlank c = true := parted c starts
    rw [solid] at this
    cases this

/-- What one reading yields the other yields with more text behind it, at some place; and under
a condition the other yields nothing else. -/
def Agrees (more : List Char) (closed : Prop)
    (short long : Except CompileError (TokenKind × Cursor)) : Prop :=
  (∀ kind behind, short = .ok (kind, behind) →
    ∃ last, long = .ok (kind, ⟨behind.rest ++ more, last⟩)) ∧
  (closed → ∀ made, long = .ok made → ∃ made, short = .ok made)

section Agrees

variable {more : List Char} {closed : Prop}
  {short short' long long' : Except CompileError (TokenKind × Cursor)}

theorem Agrees.ok {kind : TokenKind} {behind : Cursor} {last : Position} :
    Agrees more closed (.ok (kind, behind)) (.ok (kind, ⟨behind.rest ++ more, last⟩)) := by
  refine ⟨fun _ _ h => ?_, fun _ _ _ => ⟨_, rfl⟩⟩
  cases h
  exact ⟨last, rfl⟩

theorem Agrees.refuse {place place' : Position} {message message' : String} :
    Agrees more closed (refuse place message) (refuse place' message') :=
  ⟨fun _ _ h => (by cases h), fun _ _ h => (by cases h)⟩

theorem Agrees.ite {c : Prop} [Decidable c] (h : c → Agrees more closed short long)
    (h' : ¬ c → Agrees more closed short' long') :
    Agrees more closed (if c then short else short') (if c then long else long') := by
  split
  · exact h ‹_›
  · exact h' ‹_›

theorem Agrees.quotedToken {place place' at' : Position} {opening : Cursor}
    (h : closed → quoting (some false) opening.rest = none) :
    Agrees more closed (quotedToken place opening)
      (quotedToken place' ⟨opening.rest ++ more, at'⟩) := by
  unfold Scanner.quotedToken
  split
  · rename_i found
    obtain ⟨last, found⟩ := quoted?_append found more at'
    rw [found]
    exact .ok
  · rename_i none
    refine ⟨fun _ _ h => (by cases h), fun closes => ?_⟩
    obtain ⟨content, behind, found⟩ := quoted?_of_closed [] opening.place opening.rest (h closes)
    rw [none] at found
    cases found

end Agrees

/-- A token stays the same when a blank or nothing follows its text, wherever it stands; and if
the text closes its quotes, the longer text starts with no other. -/
theorem token_agrees (place place' at' : Position) (c : Char) {after : Cursor} {more : List Char}
    (parted : Parted more) : Agrees more (Closes (c :: after.rest)) (token place c after)
      (token place' c ⟨after.rest ++ more, at'⟩) := by
  have words := parted.takeWhile isWordChar_of_isBlank after.rest
  have noDigit {d : Char} (isBlank : Text.isBlank d) : (d.isDigit || d == '.') = false :=
    Text.of_isBlank (p := fun d => d.isDigit || d == '.') (by decide +kernel) isBlank
  have digits := parted.takeWhile (p := fun d => d.isDigit || d == '.') noDigit after.rest
  have startsNumber : startsNumber c (after.rest ++ more) = startsNumber c after.rest := by
    unfold Scanner.startsNumber
    cases after.rest with
    | cons d others => rfl
    | nil =>
      cases more with
      | nil => rfl
      | cons d others => simp [(Bool.or_eq_false_iff.1 (noDigit (parted d rfl))).1]
  simp only [token, Cursor.span, words.1, words.2, digits.1, digits.2, startsNumber]
  refine .ite (fun _ => .ok) fun _ => .ite (fun _ => .ok) fun _ => .ite (fun _ => .ok) fun _ =>
    .ite (fun opens => ?quote) fun _ => .ite (fun star => ?text) fun _ =>
    .ite (fun _ => .ite (fun _ => .refuse) fun _ => .ok) fun _ => .ite (fun _ => ?angled) fun _ =>
    .ite (fun _ => ?number) fun _ => .ite (fun _ => .ok) fun _ => .refuse
  case quote =>
    subst opens
    exact .quotedToken id
  case text =>
    by_cases opens : after.rest.head? = some '"'
    · obtain ⟨rest, eq⟩ := List.head?_eq_some_iff.1 opens
      subst star
      simp only [eq]
      exact .quotedToken id
    · have opens' := parted.head? not_isBlank_quote opens
      split
      · rename_i eq
        exact absurd (by rw [eq, List.head?_cons]) opens
      · generalize after.rest ++ more = longer at opens'
        by_cases empty : (after.rest.takeWhile isWordChar).isEmpty
        · simp only [empty, if_true]
          split
          · exact absurd (List.head?_cons ..) opens'
          · exact .refuse
        · simp only [empty, Bool.false_eq_true, if_false]
          split
          · exact absurd (List.head?_cons ..) opens'
          · exact .ok
  case angled =>
    split
    · rename_i d others rest named closed
      split
      · rename_i longer named' closed'
        rw [closed, List.cons_append, List.cons.injEq] at closed'
        rw [← closed'.2]
        exact .ok
      · rename_i no
        exact absurd (by rw [closed, List.cons_append]) (no _ _ (rest ++ more) named)
    · rename_i no
      split
      · rename_i d others longer named closed
        have angle : (after.rest.dropWhile isWordChar).head? = some '>' := by
          by_contra other
          exact parted.head? (by decide) other (by rw [closed, List.head?_cons])
        obtain ⟨rest, eq⟩ := List.head?_eq_some_iff.1 angle
        exact absurd eq (no _ _ rest named)
      · exact .refuse
  case number =>
    split
    · exact .ok
    · exact .refuse

/-! ## Whole texts -/

/-- Wherever the text stands, its first token has this kind, and `rest` follows it. -/
def Lexeme (kind : TokenKind) (text rest : List Char) : Prop :=
  kind ≠ .endOfSource ∧ ∀ place, ∃ at' last, next ⟨text, place⟩ = .ok (⟨kind, at'⟩, ⟨rest, last⟩)

/-- A text is made of tokens of these kinds. -/
inductive Scans : List Char → List TokenKind → Prop
  | done {text} : Text.allBlank text → Scans text []
  | more {kind text rest kinds} : Lexeme kind text rest → Scans rest kinds →
    Scans text (kind :: kinds)

theorem next_of_blank {text : List Char} (h : Text.allBlank text) (place : Position) :
    ∃ at' last, next ⟨text, place⟩ = .ok (⟨.endOfSource, at'⟩, last) := by
  have : text.dropWhile Text.isBlank = [] := List.dropWhile_eq_nil_iff.2 (List.all_eq_true.1 h)
  simp [next, Cursor.span, this]

theorem Lexeme.blank {kind : TokenKind} {text rest : List Char} (h : Lexeme kind text rest)
    {blank : List Char} (isBlank : Text.allBlank blank) : Lexeme kind (blank ++ text) rest := by
  have all : ∀ c ∈ blank, Text.isBlank c = true := List.all_eq_true.1 isBlank
  refine ⟨h.1, fun place => ?_⟩
  obtain ⟨at', last, made⟩ := h.2 (Cursor.walk place blank)
  refine ⟨at', last, ?_⟩
  rw [← made]
  simp only [next, Cursor.span, List.dropWhile_append_of_pos all, List.takeWhile_append_of_pos all,
    Cursor.walk,
    List.foldl_append]

theorem lexeme_of_token {c : Char} {rest behind : List Char} {kind : TokenKind}
    (solid : Text.isBlank c = false) (notEnd : kind ≠ .endOfSource)
    (h : ∀ place after, ∃ last, token place c ⟨rest, after⟩ = .ok (kind, ⟨behind, last⟩)) :
    Lexeme kind (c :: rest) behind := by
  refine ⟨notEnd, fun place => ?_⟩
  obtain ⟨last, made⟩ := h place (Cursor.step place c)
  refine ⟨place, last, ?_⟩
  simp only [next, Cursor.span, List.dropWhile_cons_of_neg
    (by simp [solid] : ¬ Text.isBlank c = true),
    List.takeWhile_cons_of_neg (by simp [solid] : ¬ Text.isBlank c = true)]
  show (token place c ⟨rest, Cursor.step place c⟩).map _ = _
  rw [made]
  rfl

theorem lexeme_of_dropWhile {kind : TokenKind} {text : List Char} {c : Char}
    {place : Position} {after behind : Cursor}
    (eq : text.dropWhile Text.isBlank = c :: after.rest)
    (made : token place c after = .ok (kind, behind)) : Lexeme kind text behind.rest := by
  have everywhere (place' at') : ∃ last, token place' c ⟨after.rest, at'⟩ =
      .ok (kind, ⟨behind.rest, last⟩) := by
    have same : Agrees [] (Closes (c :: after.rest)) (token place c after)
        (token place' c ⟨after.rest ++ [], at'⟩) := token_agrees place place' at' c parted_nil
    simpa using same.1 _ _ made
  have lexeme : Lexeme kind (c :: after.rest) behind.rest :=
    lexeme_of_token ?_ (token_kind made) everywhere
  · rw [← List.takeWhile_append_dropWhile (p := Text.isBlank) (l := text), eq]
    exact lexeme.blank (List.all_eq_true.2 fun d mem => List.mem_takeWhile_imp mem)
  · have := List.head?_dropWhile_not Text.isBlank text
    rw [eq] at this
    simpa using this

theorem next_inv {text : List Char} {place : Position} {token : Token} {behind : Cursor}
    (h : next ⟨text, place⟩ = .ok (token, behind)) (more : token.kind ≠ .endOfSource) :
    ∃ c after, text.dropWhile Text.isBlank = c :: after.rest ∧
      Scanner.token token.place c after = .ok (token.kind, behind) := by
  simp only [next, Cursor.span] at h
  split at h
  · cases h
    exact absurd rfl more
  · rename_i c rest eq
    obtain ⟨made, step, eq'⟩ := map_eq_ok.1 h
    cases eq'
    exact ⟨c, _, eq, step⟩

theorem lexeme_of_next {text : List Char} {place : Position} {token : Token} {behind : Cursor}
    (h : next ⟨text, place⟩ = .ok (token, behind)) (more : token.kind ≠ .endOfSource) :
    Lexeme token.kind text behind.rest := by
  obtain ⟨c, after, eq, made⟩ := next_inv h more
  exact lexeme_of_dropWhile eq made

/-- What the first token of a text is, whatever its place. -/
theorem lexeme_iff {kind : TokenKind} {text rest : List Char} : Lexeme kind text rest ↔
    ∃ c after, text.dropWhile Text.isBlank = c :: after.rest ∧
      ∃ place behind, token place c after = .ok (kind, behind) ∧ behind.rest = rest := by
  constructor
  · intro h
    obtain ⟨at_, last, made⟩ := h.2 ⟨1, 1⟩
    obtain ⟨c, after, eq, made⟩ := next_inv made h.1
    exact ⟨c, after, eq, at_, ⟨rest, last⟩, made, rfl⟩
  · rintro ⟨c, after, eq, place, behind, made, rfl⟩
    exact lexeme_of_dropWhile eq made

theorem Lexeme.unique {kind kind' : TokenKind} {text rest rest' : List Char}
    (h : Lexeme kind text rest) (h' : Lexeme kind' text rest') : kind = kind' ∧ rest = rest' := by
  obtain ⟨at_, last, made⟩ := h.2 ⟨1, 1⟩
  obtain ⟨at', last', made'⟩ := h'.2 ⟨1, 1⟩
  rw [made] at made'
  cases made'
  exact ⟨rfl, rfl⟩

/-- The tokens of a text whose first is known start with it. -/
theorem Scans.after {text rest : List Char} {kind : TokenKind} {kinds : List TokenKind}
    (h : Scans text kinds) (lexeme : Lexeme kind text rest) :
    ∃ others, kinds = kind :: others ∧ Scans rest others := by
  cases h with
  | done isBlank =>
    obtain ⟨at_, last, made⟩ := lexeme.2 ⟨1, 1⟩
    obtain ⟨at', last', made'⟩ := next_of_blank isBlank ⟨1, 1⟩
    rw [made] at made'
    cases made'
    exact absurd rfl lexeme.1
  | more lexeme' scans =>
    obtain ⟨rfl, rfl⟩ := lexeme.unique lexeme'
    exact ⟨_, rfl, scans⟩

theorem Scans.no_end {text : List Char} {kinds : List TokenKind} (h : Scans text kinds) :
    .endOfSource ∉ kinds := by
  induction h with
  | done => exact nofun
  | more lexeme _ ih => simp [ih, lexeme.1.symm]

/-- The tokens from a cursor on, by its first. -/
theorem all_eq (at_ : Cursor) : all at_ = (next at_).bind fun (token, behind) =>
    if token.kind = .endOfSource then .ok [token] else (all behind).map (token :: ·) := by
  rw [all]
  split
  · rename_i eq
    rw [eq]
    rfl
  · rename_i token behind eq
    rw [eq, Except.bind]
    simp only [dite_eq_ite]
    refine if_congr Iff.rfl rfl ?_
    cases all behind <;> rfl

theorem all_sound {text : List Char} {place : Position} {tokens : List Token}
    (h : all ⟨text, place⟩ = .ok tokens) :
    ∃ front, tokens.map (·.kind) = front ++ [.endOfSource] ∧ Scans text front := by
  rw [all_eq] at h
  cases step : next ⟨text, place⟩ with
  | error refused => simp [step, Except.bind] at h
  | ok pair =>
    obtain ⟨token, behind⟩ := pair
    simp only [step, Except.bind] at h
    by_cases isEnd : token.kind = .endOfSource
    · rw [if_pos isEnd] at h
      cases h
      refine ⟨[], by simp [isEnd], .done ?_⟩
      simp only [next, Cursor.span] at step
      split at step
      · rename_i eq
        exact List.all_eq_true.2 (List.dropWhile_eq_nil_iff.1 eq)
      · obtain ⟨⟨kind, behind⟩, made, eq⟩ := map_eq_ok.1 step
        cases eq
        exact absurd isEnd (token_kind made)
    · rw [if_neg isEnd] at h
      have shorter := next_shorter step isEnd
      cases made : all behind with
      | error refused => simp [made, Except.map] at h
      | ok others =>
        rw [made] at h
        cases h
        obtain ⟨front, eq, scans⟩ := all_sound made
        have lexeme := lexeme_of_next step isEnd
        exact ⟨token.kind :: front, by simp [eq], .more lexeme scans⟩
termination_by text.length

theorem Scans.all {text : List Char} {front : List TokenKind} (h : Scans text front) :
    ∀ place, ∃ tokens, Scanner.all ⟨text, place⟩ = .ok tokens ∧ tokens.map (·.kind) = front ++
      [.endOfSource] := by
  induction h with
  | done isBlank =>
    intro place
    obtain ⟨at', last, made⟩ := next_of_blank isBlank place
    refine ⟨[⟨.endOfSource, at'⟩], ?_, rfl⟩
    rw [all_eq, made]
    rfl
  | @more kind _ _ _ lexeme _ ih =>
    intro place
    obtain ⟨at', last, made⟩ := lexeme.2 place
    obtain ⟨tokens, rest, eq⟩ := ih last
    refine ⟨⟨kind, at'⟩ :: tokens, ?_, by simp [eq]⟩
    rw [all_eq, made, Except.bind]
    simp only [if_neg lexeme.1, rest]
    rfl

/-- Scanning works exactly if the text is made of tokens, and then yields their kinds. -/
theorem all_ok_iff {text : List Char} {place : Position} {kinds : List TokenKind} :
    (∃ tokens, all ⟨text, place⟩ = .ok tokens ∧ tokens.map (·.kind) = kinds) ↔
      ∃ front, kinds = front ++ [.endOfSource] ∧ Scans text front := by
  constructor
  · rintro ⟨tokens, made, rfl⟩
    exact all_sound made
  · rintro ⟨front, rfl, scans⟩
    exact scans.all place

end Scanner
end ScriptHost
