import Mathlib.Data.List.Chain
import ScriptHost.Proofs.Script.Separating
/-!
# Lexemes

`Spelt kind lexeme grows`: the grammar of single tokens. `lexeme` is read as a token of this kind
wherever the character behind it is none of the class `grows`, those that would belong to it. A
text that is made of tokens is made of such lexemes with blanks between them, and which they are
can be read off (`Made`).

Inside a lexeme without quotes any two neighbours belong together (`joins`). So a text and what
follows it share no token if the text closes its quotes and the characters at the seam do not
join, be there a blank or not.

**Results.**
* `Scanner.lexeme_iff_spelt`: the first token of a text, by its spelling.
* `Scanner.scans_iff_made`: a text is made of tokens exactly if it is made of lexemes.
* `Scanner.scans_unjoined_iff`: the tokens of two texts that do not join are those of both.
-/
namespace ScriptHost.Scanner

/-! ## Quoted texts -/

/-- What the text between two quotes means, `escaped` right behind a backslash; nothing if it
would end earlier, or not at all. -/
def unquote : Bool → List Char → Option (List Char)
  | escaped, [] => if escaped then none else some []
  | true, c :: rest =>
    (unquote false rest).map ((if c = 'n' then '\n' else if c = 't' then '\t' else c) :: ·)
  | false, c :: rest =>
    if c = '\\' then unquote true rest
    else if c = '"' then none
    else (unquote false rest).map (c :: ·)

theorem quoted?_of_unquote {body inside : List Char} (h : unquote false body = some inside)
    (kept rest : List Char) (place : Position) :
    ∃ last, quoted? kept place (body ++ '"' :: rest) =
      some (String.ofList (kept.reverse ++ inside), ⟨rest, last⟩) := by
  fun_induction quoted? kept place body generalizing inside with
  | case1 kept place =>
    cases h
    exact ⟨_, by rw [List.append_nil]; rfl⟩
  | case2 => cases h
  | case3 kept place c others meant =>
    rename_i ih
    simp only [unquote, if_true, Option.map_eq_some_iff] at h
    obtain ⟨inside, made, rfl⟩ := h
    obtain ⟨last, eq⟩ := ih made
    refine ⟨last, ?_⟩
    rw [List.cons_append, List.cons_append, quoted?, eq]
    simp [meant]
  | case4 => cases h
  | case5 kept place c others noQuote notEscape notEnd ih =>
    have noSlash := ne_slash notEscape notEnd
    simp only [unquote, if_neg noSlash, if_neg noQuote, Option.map_eq_some_iff] at h
    obtain ⟨inside, made, rfl⟩ := h
    obtain ⟨last, eq⟩ := ih made
    refine ⟨last, ?_⟩
    rw [List.cons_append, quoted?, eq]
    · simp
    · exact noQuote
    · exact fun _ _ slash => absurd slash noSlash
    · exact fun slash => absurd slash noSlash

theorem unquote_of_quoted? {kept text : List Char} {place : Position} {content : String}
    {behind : Cursor} (h : quoted? kept place text = some (content, behind)) :
    ∃ body inside, text = body ++ '"' :: behind.rest ∧ unquote false body = some inside ∧
      content = String.ofList (kept.reverse ++ inside) := by
  fun_induction quoted? kept place text with
  | case1 => cases h
  | case2 kept place rest =>
    cases h
    exact ⟨[], [], rfl, rfl, by rw [List.append_nil]⟩
  | case3 kept place c rest meant ih =>
    obtain ⟨body, inside, rfl, made, rfl⟩ := ih h
    refine ⟨'\\' :: c :: body, meant :: inside, rfl, ?_, by simp⟩
    simp [unquote, made, meant]
  | case4 => cases h
  | case5 kept place c rest noQuote notEscape notEnd ih =>
    have noSlash := ne_slash notEscape notEnd
    obtain ⟨body, inside, rfl, made, rfl⟩ := ih h
    refine ⟨c :: body, c :: inside, rfl, ?_, by simp⟩
    rw [unquote, if_neg noSlash, if_neg noQuote, made]
    rfl

theorem unquote_cons {escaped : Bool} {c : Char} {rest : List Char} :
    (unquote escaped (c :: rest)).isSome ↔
      ∃ next, quoteStep (some escaped) c = some next ∧ (unquote next rest).isSome := by
  cases escaped with
  | true => simp [unquote, quoteStep]
  | false =>
    simp only [unquote, quoteStep]
    split
    · simp
    · split <;> simp

/-- Quotes stay open up to the end of what stands between them. -/
theorem quoting_of_unquote {front more : List Char} {escaped : Bool}
    (h : (unquote escaped (front ++ more)).isSome) : quoting (some escaped) front ≠ none := by
  induction front generalizing escaped with
  | nil => simp
  | cons c rest ih =>
    obtain ⟨next, step, h⟩ := unquote_cons.1 h
    rw [quoting_cons, step]
    exact ih h

/-- The end of a quoted text can be replaced. -/
theorem unquote_append {front more more' : List Char} {escaped : Bool}
    (h : (unquote escaped (front ++ more)).isSome)
    (h' : ∀ escaped, (unquote escaped more).isSome → (unquote escaped more').isSome) :
    (unquote escaped (front ++ more')).isSome := by
  induction front generalizing escaped with
  | nil => exact h' escaped h
  | cons c rest ih =>
    obtain ⟨next, step, h⟩ := unquote_cons.1 h
    exact unquote_cons.2 ⟨next, step, ih h⟩

/-- A blank neither opens quotes nor closes them, and behind it no character is escaped. -/
theorem quoteStep_blank {c : Char} (isBlank : Text.isBlank c) (start : Option Bool) :
    quoteStep start c = start.map fun _ => false := by
  have plain : (c == '\\' || c == '"') = false :=
    Text.of_isBlank (p := fun c => c == '\\' || c == '"') (by decide) isBlank
  rcases start with - | - | - <;> simp_all [quoteStep]

section Blanks

variable {blanks : List Char}

theorem quoting_blanks (isBlank : Text.allBlank blanks) (notNil : blanks ≠ [])
    (start : Option Bool) : quoting start blanks = start.map fun _ => false := by
  induction blanks generalizing start with
  | nil => exact absurd rfl notNil
  | cons c rest ih =>
    obtain ⟨first, isBlank⟩ := Text.allBlank_cons.1 isBlank
    rw [quoting_cons, quoteStep_blank first]
    cases rest with
    | nil => rfl
    | cons d others =>
      rw [ih isBlank (by simp), Option.map_map]
      rfl

theorem unquote_blanks (isBlank : Text.allBlank blanks) (notNil : blanks ≠ []) {escaped : Bool}
    {more : List Char} :
    (unquote escaped (blanks ++ more)).isSome ↔ (unquote false more).isSome := by
  induction blanks generalizing escaped with
  | nil => exact absurd rfl notNil
  | cons c rest ih =>
    obtain ⟨first, isBlank⟩ := Text.allBlank_cons.1 isBlank
    rw [List.cons_append, unquote_cons, quoteStep_blank first]
    simp only [Option.map_some, Option.some.injEq, exists_eq_left']
    cases rest with
    | nil => rfl
    | cons d others => exact ih isBlank (by simp)

end Blanks

/-! ## Spellings -/

/-- The characters that the run of a number is made of. -/
def isNumberChar (c : Char) : Bool := c.isDigit || c == '.'

theorem isNumberChar_of_isDigit {c : Char} (h : c.isDigit) : isNumberChar c := by
  simp [isNumberChar, h]

theorem isWordChar_of_isNumberChar {c : Char} (h : isNumberChar c) : isWordChar c := by
  simp only [isNumberChar, Bool.or_eq_true, beq_iff_eq] at h
  rcases h with digit | rfl
  · have alphanumeric : Text.isAlphanumeric c :=
      Text.isAlphanumeric_of_isAlphanum (by simp [Char.isAlphanum, digit])
    simp [isWordChar, alphanumeric]
  · decide

theorem isWordChar_of_isDigit {c : Char} (h : c.isDigit) : isWordChar c :=
  isWordChar_of_isNumberChar (isNumberChar_of_isDigit h)

/-- A lexeme that is read as a token of this kind, with the characters that would belong to it if
one of them stood behind it. -/
inductive Spelt : TokenKind → List Char → (Char → Bool) → Prop
  | openBrace : Spelt .openBrace ['\x7b'] fun _ => false
  | closeBrace : Spelt .closeBrace ['\x7d'] fun _ => false
  | equals : Spelt .equals ['='] fun _ => false
  | quoted {mark body inside} : mark = [] ∨ mark = ['*'] → unquote false body = some inside →
    Spelt (.text (String.ofList inside)) (mark ++ '"' :: (body ++ ['"'])) fun _ => false
  | plain {name} : name ≠ [] → (∀ c ∈ name, isWordChar c) →
    Spelt (.text (String.ofList name)) ('*' :: name) isWordChar
  | reference {name} : name ≠ [] → (∀ c ∈ name, isWordChar c) →
    Spelt (.reference (String.ofList name)) ('&' :: name) isWordChar
  | angled {name} : name ≠ [] → (∀ c ∈ name, isWordChar c) →
    Spelt (.word (String.ofList name)) ('<' :: (name ++ ['>'])) fun _ => false
  | number {c run kind} : startsNumber c run → (∀ d ∈ run, isNumberChar d) →
    number? (c :: run) = some kind → Spelt kind (c :: run) isNumberChar
  | word {c name} : isWordChar c → (∀ d ∈ name, isWordChar d) → startsNumber c name = false →
    Spelt (.word (String.ofList (c :: name))) (c :: name) isWordChar

section Spelt

variable {kind : TokenKind} {lexeme : List Char} {grows : Char → Bool}

/-- The longest run of a class is what stands before a character outside it. -/
theorem span_exact {p : Char → Bool} {run rest : List Char} (inside : ∀ c ∈ run, p c)
    (stop : ∀ d ∈ rest.head?, p d = false) :
    (run ++ rest).takeWhile p = run ∧ (run ++ rest).dropWhile p = rest := by
  rw [List.takeWhile_append_of_pos inside, List.dropWhile_append_of_pos inside]
  cases rest with
  | nil => simp
  | cons d others => simp [stop d rfl]

theorem span_stop {p : Char → Bool} {text : List Char} :
    ∀ d ∈ (text.dropWhile p).head?, p d = false := by
  intro d mem
  have := List.head?_dropWhile_not p text
  rw [Option.mem_def.1 mem] at this
  simpa using this

theorem isWordChar_of_startsNumber {c : Char} {rest : List Char} (h : startsNumber c rest) :
    isWordChar c := by
  simp only [startsNumber, Bool.or_eq_true, Bool.and_eq_true, beq_iff_eq] at h
  rcases h with digit | ⟨rfl, -⟩
  · exact isWordChar_of_isDigit digit
  · decide

/-- Whether a number starts does not depend on what follows a run of digits. -/
theorem startsNumber_append (c : Char) (run : List Char) {p : Char → Bool}
    (digits : ∀ {d : Char}, d.isDigit → p d) {rest : List Char}
    (stop : ∀ d ∈ rest.head?, p d = false) : startsNumber c (run ++ rest) = startsNumber c run := by
  unfold startsNumber
  cases run with
  | cons d more => rfl
  | nil =>
    cases rest with
    | nil => rfl
    | cons d others =>
      have noDigit : d.isDigit = false := by
        by_contra digit
        have inside := digits (by simpa using digit : d.isDigit)
        rw [stop d rfl] at inside
        cases inside
      simp [noDigit]

/-- A word character starts a number or a word. -/
theorem token_of_wordChar {c : Char} (isWord : isWordChar c) (place : Position) (after : Cursor) :
    token place c after =
      if startsNumber c after.rest then
        match number? (c :: after.rest.takeWhile isNumberChar) with
        | some kind => .ok (kind, (after.span isNumberChar).2)
        | none => refuse place ("invalid number '" ++
            String.ofList (c :: after.rest.takeWhile isNumberChar) ++ "'")
      else .ok (.word (String.ofList (c :: after.rest.takeWhile isWordChar)),
        (after.span isWordChar).2) := by
  have other {d : Char} (h : isWordChar d = false) : c ≠ d := by
    rintro rfl
    rw [isWord] at h
    cases h
  unfold token
  simp only
  rw [if_neg (other (by decide)), if_neg (other (by decide)), if_neg (other (by decide)),
    if_neg (other (by decide)), if_neg (other (by decide)), if_neg (other (by decide)),
    if_neg (other (by decide)), if_pos isWord]
  rfl

/-- What is spelt is read, whatever does not go on with it. -/
theorem Spelt.isLexeme (spelt : Spelt kind lexeme grows) {rest : List Char}
    (stop : ∀ d ∈ rest.head?, grows d = false) : Lexeme kind (lexeme ++ rest) rest := by
  cases spelt with
  | openBrace => exact lexeme_openBrace rest
  | closeBrace => exact lexeme_of_token (by decide) (by simp) fun _ after => ⟨after, rfl⟩
  | equals => exact lexeme_equals rest
  | @quoted mark body inside marked made =>
    rw [List.append_assoc, List.cons_append, List.append_assoc, List.singleton_append]
    rcases marked with rfl | rfl
    · refine lexeme_of_token (by decide) (by simp) fun place after => ?_
      obtain ⟨last, eq⟩ := quoted?_of_unquote made [] rest after
      refine ⟨last, ?_⟩
      show quotedToken place ⟨_, after⟩ = _
      simp [quotedToken, eq]
    · refine lexeme_of_token (by decide) (by simp) fun place after => ?_
      obtain ⟨last, eq⟩ := quoted?_of_unquote made [] rest (Cursor.step after '"')
      refine ⟨last, ?_⟩
      show quotedToken place ⟨_, Cursor.step after '"'⟩ = _
      simp [quotedToken, eq]
  | @plain name some word =>
    obtain ⟨run, others⟩ := span_exact word stop
    show Lexeme _ ('*' :: (name ++ rest)) rest
    refine lexeme_of_token (by decide) (by simp) fun place after => ⟨Cursor.walk after name, ?_⟩
    have noQuote (more : List Char) : name ++ rest ≠ '"' :: more := fun quote => by
      obtain ⟨first, others, rfl⟩ := List.exists_cons_of_ne_nil some
      cases quote
      exact absurd (word '"' (.head _)) (by decide)
    simp [token, Cursor.span, run, others, some]
  | @reference name some word =>
    obtain ⟨run, others⟩ := span_exact word stop
    show Lexeme _ ('&' :: (name ++ rest)) rest
    refine lexeme_of_token (by decide) (by simp) fun place after => ⟨Cursor.walk after name, ?_⟩
    simp [token, Cursor.span, run, others, some]
  | @angled name some word =>
    obtain ⟨run, others⟩ : (name ++ '>' :: rest).takeWhile isWordChar = name ∧
        (name ++ '>' :: rest).dropWhile isWordChar = '>' :: rest :=
      span_exact word fun d mem => by cases mem; decide
    have eq : '<' :: (name ++ ['>']) ++ rest = '<' :: (name ++ '>' :: rest) := by simp
    rw [eq]
    refine lexeme_of_token (by decide) (by simp) fun place after =>
      ⟨Cursor.step (Cursor.walk after name) '>', ?_⟩
    obtain ⟨first, more, rfl⟩ := List.exists_cons_of_ne_nil some
    simp only [token, Cursor.span, run, others]
    rfl
  | @number c run kind starts digits value =>
    obtain ⟨cut, others⟩ := span_exact digits stop
    rw [← startsNumber_append c run isNumberChar_of_isDigit stop] at starts
    show Lexeme _ (c :: (run ++ rest)) rest
    have isWord := isWordChar_of_startsNumber starts
    have notEnd : kind ≠ .endOfSource := by
      rintro rfl
      unfold number? at value
      split at value <;> simp at value
    refine lexeme_of_token (isBlank_of_isWordChar isWord) notEnd fun place after =>
      ⟨Cursor.walk after run, ?_⟩
    rw [token_of_wordChar isWord]
    simp only [Cursor.span, cut, others, starts, value]
    rfl
  | @word c name first word noNumber =>
    obtain ⟨run, others⟩ := span_exact word stop
    rw [← startsNumber_append c name isWordChar_of_isDigit stop] at noNumber
    show Lexeme _ (c :: (name ++ rest)) rest
    refine lexeme_of_token (isBlank_of_isWordChar first) (by simp) fun place after =>
      ⟨Cursor.walk after name, ?_⟩
    rw [token_of_wordChar first]
    simp only [Cursor.span, run, others, noNumber]
    rfl

theorem spelt_of_token {place : Position} {c : Char} {after behind : Cursor}
    (h : token place c after = .ok (kind, behind)) :
    ∃ lexeme grows, c :: after.rest = lexeme ++ behind.rest ∧ Spelt kind lexeme grows ∧
      ∀ d ∈ behind.rest.head?, grows d = false := by
  have run (p : Char → Bool) (text : List Char) : text = text.takeWhile p ++ text.dropWhile p ∧
      (∀ d ∈ text.takeWhile p, p d) ∧ ∀ d ∈ (text.dropWhile p).head?, p d = false :=
    ⟨List.takeWhile_append_dropWhile.symm, fun _ => List.mem_takeWhile_imp, span_stop⟩
  have quotes {place : Position} {opening : Cursor} {mark : List Char}
      (marked : mark = [] ∨ mark = ['*']) (h : quotedToken place opening = .ok (kind, behind)) :
      ∃ lexeme grows, mark ++ '"' :: opening.rest = lexeme ++ behind.rest ∧
        Spelt kind lexeme grows ∧ ∀ d ∈ behind.rest.head?, grows d = false := by
    unfold quotedToken at h
    split at h
    · rename_i found
      cases h
      obtain ⟨body, inside, eq, made, rfl⟩ := unquote_of_quoted? found
      exact ⟨_, _, by simp [eq], .quoted marked made, fun _ _ => rfl⟩
    · cases h
  have marked {name : List Char} {place : Position} {message : String} {made : TokenKind × Cursor}
      (h : (if name.isEmpty then refuse place message else .ok made) = .ok (kind, behind)) :
      name ≠ [] ∧ made = (kind, behind) := by
    by_cases empty : name.isEmpty
    · rw [if_pos empty] at h
      cases h
    · rw [if_neg empty] at h
      exact ⟨by simpa using empty, Except.ok.inj h⟩
  obtain ⟨whole, word, stop⟩ := run isWordChar after.rest
  simp only [token, Cursor.span] at h
  split at h
  · rename_i eq
    cases eq
    cases h
    exact ⟨_, _, rfl, .openBrace, fun _ _ => rfl⟩
  split at h
  · rename_i eq
    cases eq
    cases h
    exact ⟨_, _, rfl, .closeBrace, fun _ _ => rfl⟩
  split at h
  · rename_i eq
    cases eq
    cases h
    exact ⟨_, _, rfl, .equals, fun _ _ => rfl⟩
  split at h
  · rename_i eq
    cases eq
    exact quotes (.inl rfl) h
  split at h
  · rename_i eq
    cases eq
    split at h
    · rename_i eq
      rw [eq]
      exact quotes (.inr rfl) h
    · obtain ⟨some, same⟩ := marked h
      cases same
      exact ⟨'*' :: _, _, congrArg ('*' :: ·) whole, .plain some word, stop⟩
  split at h
  · rename_i eq
    cases eq
    obtain ⟨some, same⟩ := marked h
    cases same
    exact ⟨'&' :: _, _, congrArg ('&' :: ·) whole, .reference some word, stop⟩
  split at h
  · rename_i eq
    cases eq
    split at h
    · rename_i first more rest named closed
      cases h
      refine ⟨_, _, ?_, .angled (by simp [named]) word, fun _ _ => rfl⟩
      rw [closed] at whole
      simpa using congrArg ('<' :: ·) whole
    · cases h
  split at h
  · rename_i starts
    obtain ⟨whole, digits, stop⟩ := run isNumberChar after.rest
    split at h
    · rename_i value
      cases h
      rw [whole, startsNumber_append c _ isNumberChar_of_isDigit stop] at starts
      exact ⟨c :: _, _, congrArg (c :: ·) whole, .number starts digits value, stop⟩
    · cases h
  split at h
  · rename_i noNumber first
    cases h
    rw [whole, startsNumber_append c _ isWordChar_of_isDigit stop] at noNumber
    exact ⟨c :: _, _, congrArg (c :: ·) whole, .word first word (by simpa using noNumber), stop⟩
  · cases h

theorem Spelt.head (spelt : Spelt kind lexeme grows) :
    ∃ c rest, lexeme = c :: rest ∧ Text.isBlank c = false := by
  cases spelt with
  | number starts => exact ⟨_, _, rfl, isBlank_of_isWordChar (isWordChar_of_startsNumber starts)⟩
  | word first => exact ⟨_, _, rfl, isBlank_of_isWordChar first⟩
  | quoted marked => rcases marked with rfl | rfl <;> exact ⟨_, _, rfl, by decide⟩
  | _ => exact ⟨_, _, rfl, by decide⟩

/-- A lexeme is a quoted text, or none of its characters means anything to blanks, quotes and
comments. -/
theorem Spelt.quoted_or_plain (spelt : Spelt kind lexeme grows) :
    (∃ mark body inside, (mark = [] ∨ mark = ['*']) ∧ unquote false body = some inside ∧
      kind = .text (String.ofList inside) ∧ lexeme = mark ++ '"' :: (body ++ ['"']) ∧
      grows = fun _ => false) ∨
    ∀ c ∈ lexeme, Text.isBlank c = false ∧ c ≠ '/' ∧ c ≠ '"' := by
  have plain {c : Char} (isWord : isWordChar c) : Text.isBlank c = false ∧ c ≠ '/' ∧ c ≠ '"' := by
    refine ⟨isBlank_of_isWordChar isWord, ?_, ?_⟩
    all_goals
      rintro rfl
      exact absurd isWord (by decide)
  cases spelt with
  | quoted marked made => exact .inl ⟨_, _, _, marked, made, rfl, rfl, rfl⟩
  | plain _ word | reference _ word =>
    exact .inr (List.forall_mem_cons.2 ⟨by decide, fun c mem => plain (word c mem)⟩)
  | angled _ word =>
    refine .inr (List.forall_mem_cons.2 ⟨by decide, fun c mem => ?_⟩)
    rcases List.mem_append.1 mem with mem | mem
    · exact plain (word c mem)
    · cases List.mem_singleton.1 mem
      decide
  | number starts digits =>
    exact .inr (List.forall_mem_cons.2 ⟨plain (isWordChar_of_startsNumber starts), fun c mem =>
      plain (isWordChar_of_isNumberChar (digits c mem))⟩)
  | word first word =>
    exact .inr (List.forall_mem_cons.2 ⟨plain first, fun c mem => plain (word c mem)⟩)
  | _ => exact .inr (List.forall_mem_singleton.2 (by decide))

theorem Spelt.last (spelt : Spelt kind lexeme grows) :
    ∃ front c, lexeme = front ++ [c] ∧ Text.isBlank c = false := by
  rcases spelt.quoted_or_plain with ⟨mark, body, inside, -, -, -, rfl, -⟩ | plain
  · exact ⟨mark ++ '"' :: body, '"', by simp, by decide⟩
  · obtain ⟨c, rest, rfl, -⟩ := spelt.head
    obtain ⟨front, last, eq⟩ := (List.eq_nil_or_concat' (c :: rest)).resolve_left (by simp)
    exact ⟨front, last, eq, (plain last (by simp [eq])).1⟩

theorem Spelt.grows_blank (spelt : Spelt kind lexeme grows) {c : Char} (isBlank : Text.isBlank c) :
    grows c = false := by
  have words := isWordChar_of_isBlank isBlank
  cases spelt with
  | number => exact Text.of_isBlank (p := isNumberChar) (by decide +kernel) isBlank
  | plain | reference | word => exact words
  | _ => rfl

end Spelt

/-- The first token of a text is what is spelt behind its blanks, up to a character that does not
go on with it. -/
theorem lexeme_iff_spelt {kind : TokenKind} {text rest : List Char} : Lexeme kind text rest ↔
    ∃ blanks lexeme grows, text = blanks ++ (lexeme ++ rest) ∧ Text.allBlank blanks ∧
      Spelt kind lexeme grows ∧ ∀ d ∈ rest.head?, grows d = false := by
  constructor
  · intro h
    obtain ⟨c, after, eq, place, behind, made, rfl⟩ := lexeme_iff.1 h
    obtain ⟨lexeme, grows, whole, spelt, stop⟩ := spelt_of_token made
    refine ⟨text.takeWhile Text.isBlank, lexeme, grows, ?_, ?_, spelt, stop⟩
    · rw [← whole, ← eq, List.takeWhile_append_dropWhile]
    · exact List.all_eq_true.2 fun d => List.mem_takeWhile_imp
  · rintro ⟨blanks, lexeme, grows, rfl, isBlank, spelt, stop⟩
    exact (spelt.isLexeme stop).blank isBlank

/-- A quoted text comes first: up to a quote that no backslash stands before. -/
theorem scans_quoted_iff {text : List Char} {kinds : List TokenKind} :
    Scans ('*' :: '"' :: text) kinds ↔ ∃ body behind inside others,
      text = body ++ '"' :: behind ∧ unquote false body = some inside ∧ Scans behind others ∧
        kinds = .text (String.ofList inside) :: others := by
  constructor
  · intro h
    cases h with
    | done isBlank => cases (Text.allBlank_cons.1 isBlank).1
    | @more _ _ rest others lexeme scans =>
      obtain ⟨c, after, eq, place, behind, made, rfl⟩ := lexeme_iff.1 lexeme
      have eq : '*' :: '"' :: text = c :: after.rest := eq
      obtain ⟨rfl, left⟩ := List.cons.inj eq
      obtain ⟨text', at_⟩ := after
      cases left
      have opened : token place '*' ⟨'"' :: text, at_⟩ =
          quotedToken place ⟨text, Cursor.step at_ '"'⟩ := rfl
      rw [opened, quotedToken] at made
      split at made
      · rename_i read
        cases made
        obtain ⟨body, inside, whole, unquoted, rfl⟩ := unquote_of_quoted? read
        exact ⟨body, _, inside, others, whole, unquoted, scans, rfl⟩
      · cases made
  · rintro ⟨body, behind, inside, others, rfl, made, scans, rfl⟩
    have lexeme := @Spelt.isLexeme _ _ _ (.quoted (.inr rfl) made) behind (by simp)
    simp only [List.append_assoc, List.cons_append, List.nil_append] at lexeme
    exact .more lexeme scans

/-! ## Texts as lexemes -/

/-- The tokens of a text, each with its lexeme. -/
inductive Made : List Char → List (TokenKind × List Char) → Prop
  | done {text} : Text.allBlank text → Made text []
  | more {blanks kind lexeme grows rest tokens} : Text.allBlank blanks → Spelt kind lexeme grows →
    (∀ d ∈ rest.head?, grows d = false) → Made rest tokens →
    Made (blanks ++ (lexeme ++ rest)) ((kind, lexeme) :: tokens)

/-- A text is made of tokens exactly if it is made of lexemes that are read as them. -/
theorem scans_iff_made {text : List Char} {kinds : List TokenKind} :
    Scans text kinds ↔ ∃ tokens, Made text tokens ∧ tokens.map (·.1) = kinds := by
  constructor
  · intro h
    induction h with
    | done isBlank => exact ⟨[], .done isBlank, rfl⟩
    | more lexeme _ ih =>
      obtain ⟨tokens, made, rfl⟩ := ih
      obtain ⟨blanks, lexeme, grows, rfl, isBlank, spelt, stop⟩ := lexeme_iff_spelt.1 lexeme
      exact ⟨_, .more isBlank spelt stop made, rfl⟩
  · rintro ⟨tokens, made, rfl⟩
    induction made with
    | done isBlank => exact .done isBlank
    | more isBlank spelt stop _ ih => exact .more ((spelt.isLexeme stop).blank isBlank) ih

/-! ## Seams -/

/-- Whether two characters side by side can belong to one lexeme without quotes. -/
def joins (c d : Char) : Bool :=
  isWordChar c && (isWordChar d || d == '>') || c == '*' && (d == '"' || isWordChar d) ||
    (c == '&' || c == '<') && isWordChar d

theorem joins_of_isWordChar {c d : Char} (h : isWordChar c) (h' : isWordChar d) : joins c d := by
  simp [joins, h, h']

/-- Whether no lexeme without quotes can reach from a text into what follows it. -/
def Unjoined (text more : List Char) : Prop :=
  ∀ c ∈ text.getLast?, ∀ d ∈ more.head?, joins c d = false

theorem isChain_joins {name : List Char} (word : ∀ c ∈ name, isWordChar c) :
    name.IsChain fun c d => joins c d :=
  (List.pairwise_of_forall_mem_list fun c mem d mem' =>
    joins_of_isWordChar (word c mem) (word d mem')).isChain

theorem isChain_joins_cons {c : Char} {name : List Char} (word : ∀ d ∈ name, isWordChar d)
    (first : ∀ d, isWordChar d → joins c d) : (c :: name).IsChain fun c d => joins c d :=
  List.isChain_cons.2
    ⟨fun d mem => first d (word d (List.mem_of_mem_head? mem)), isChain_joins word⟩

section Spelt

variable {kind : TokenKind} {lexeme : List Char} {grows : Char → Bool}

/-- A character that goes on with a lexeme joins with its last. -/
theorem Spelt.joins_of_grows (spelt : Spelt kind lexeme grows) {c d : Char}
    (last : c ∈ lexeme.getLast?) (more : grows d) : joins c d := by
  have inside {mark : Char} {name : List Char} (some : name ≠ [])
      (last : c ∈ (mark :: name).getLast?) : c ∈ name := by
    rw [List.getLast?_cons, List.getLast?_eq_some_getLast some] at last
    cases last
    exact List.getLast_mem some
  cases spelt with
  | plain some word | reference some word =>
    exact joins_of_isWordChar (word c (inside some last)) more
  | number starts digits =>
    have isWord : isWordChar c := by
      rcases List.mem_cons.1 (List.mem_of_getLast? last) with rfl | mem
      · exact isWordChar_of_startsNumber starts
      · exact isWordChar_of_isNumberChar (digits c mem)
    exact joins_of_isWordChar isWord (isWordChar_of_isNumberChar more)
  | @word first name isWord word =>
    have word : ∀ d ∈ first :: name, isWordChar d := List.forall_mem_cons.2 ⟨isWord, word⟩
    exact joins_of_isWordChar (word c (List.mem_of_getLast? last)) more
  | _ => cases more

theorem Unjoined.of_isChain {front more : List Char} (unjoined : Unjoined front more)
    (chain : (front ++ more).IsChain fun c d => joins c d) (some : more ≠ []) : front = [] := by
  obtain ⟨d, others, rfl⟩ := List.exists_cons_of_ne_nil some
  rcases List.eq_nil_or_concat front with rfl | ⟨first, c, rfl⟩
  · rfl
  · have joined : joins c d := (List.isChain_append.1 chain).2.2 c (by simp) d rfl
    rw [unjoined c (by simp) d rfl] at joined
    cases joined

/-- What stands between quotes does not close them before its end. -/
theorem quoting_of_quoted {front more body inside : List Char}
    (made : unquote false body = some inside) (eq : front ++ more = body ++ ['"'])
    (notEnd : more ≠ []) : quoting (some false) front ≠ none := by
  obtain ⟨rest, last, rfl⟩ := (List.eq_nil_or_concat' more).resolve_left notEnd
  rw [← List.append_assoc] at eq
  obtain ⟨rfl, -⟩ := List.append_inj' eq rfl
  exact quoting_of_unquote (by rw [made]; rfl)

/-- A lexeme cannot be cut where its quotes are closed and its characters do not join. -/
theorem Spelt.cut {front more : List Char} (spelt : Spelt kind (front ++ more) grows)
    (notEnd : more ≠ []) (closes : Closes front) (unjoined : Unjoined front more) :
    front = [] := by
  generalize eq : front ++ more = lexeme at spelt
  have chained (chain : lexeme.IsChain fun c d => joins c d) : front = [] :=
    unjoined.of_isChain (eq ▸ chain) notEnd
  cases spelt with
  | openBrace | closeBrace | equals => exact chained (.singleton _)
  | quoted marked made =>
    rcases marked with rfl | rfl
    · cases front with
      | nil => rfl
      | cons c front =>
        rw [List.cons_append, List.nil_append, List.cons.injEq] at eq
        obtain ⟨rfl, eq⟩ := eq
        exact absurd closes (quoting_of_quoted made eq notEnd)
    · rcases front with - | ⟨c, - | ⟨d, front⟩⟩
      · rfl
      · obtain ⟨rfl, rfl⟩ := List.cons.inj eq
        exact absurd (unjoined '*' rfl '"' rfl) (by decide)
      · simp only [List.cons_append, List.nil_append, List.cons.injEq] at eq
        obtain ⟨rfl, rfl, eq⟩ := eq
        exact absurd closes (quoting_of_quoted made eq notEnd)
  | plain _ word | reference _ word =>
    exact chained (isChain_joins_cons word fun d h => by simp [joins, h])
  | @angled name some word =>
    have closed : (name ++ ['>']).IsChain fun c d => joins c d :=
      List.isChain_append.2 ⟨isChain_joins word, .singleton _, fun c mem d mem' => by
        cases mem'
        simp [joins, word c (List.mem_of_getLast? mem)]⟩
    obtain ⟨first, rest, rfl⟩ := List.exists_cons_of_ne_nil some
    exact chained (closed.cons_cons (by simp [joins, word first (.head _)]))
  | @number c run kind starts digits =>
    have word : ∀ d ∈ c :: run, isWordChar d := List.forall_mem_cons.2
      ⟨isWordChar_of_startsNumber starts, fun d mem => isWordChar_of_isNumberChar (digits d mem)⟩
    exact chained (isChain_joins word)
  | @word c name first word =>
    have word : ∀ d ∈ c :: name, isWordChar d := List.forall_mem_cons.2 ⟨first, word⟩
    exact chained (isChain_joins word)

end Spelt

section Seam

variable {text more : List Char}

theorem Unjoined.behind {front : List Char} (unjoined : Unjoined (front ++ text) more) :
    Unjoined text more := by
  intro c last
  refine unjoined c ?_
  rw [List.getLast?_append, Option.mem_def.1 last]
  rfl

theorem Unjoined.before {rest : List Char} (unjoined : Unjoined text (more ++ rest)) :
    Unjoined text more := by
  intro c last d first
  refine unjoined c last d ?_
  rw [List.head?_append, Option.mem_def.1 first]
  rfl

/-- The first token of two texts that do not join is one of the first, unless that is blank. -/
theorem Lexeme.of_unjoined {kind : TokenKind} {rest : List Char}
    (h : Lexeme kind (text ++ more) rest) (closes : Closes text) (unjoined : Unjoined text more)
    (solid : ¬ Text.allBlank text) : ∃ rest', Lexeme kind text rest' ∧ rest = rest' ++ more := by
  obtain ⟨blanks, lexeme, grows, whole, isBlank, spelt, stop⟩ := lexeme_iff_spelt.1 h
  obtain ⟨front, rfl, eq⟩ : ∃ front, text = blanks ++ front ∧ lexeme ++ rest = front ++ more := by
    rcases List.append_eq_append_iff.1 whole with ⟨blanks', rfl, -⟩ | ⟨front, rfl, eq⟩
    · refine absurd ?_ solid
      exact (Text.allBlank_append.1 isBlank).1
    · exact ⟨front, rfl, eq⟩
  have first {rest' : List Char} (eq : front = lexeme ++ rest')
      (stop : ∀ d ∈ rest'.head?, grows d = false) : Lexeme kind (blanks ++ front) rest' :=
    lexeme_iff_spelt.2 ⟨blanks, lexeme, grows, by rw [eq], isBlank, spelt, stop⟩
  -- The lexeme ends in the first text, or it is cut at the seam.
  rcases List.append_eq_append_iff.1 eq with ⟨rest', inside, rfl⟩ | ⟨behind, rfl, rfl⟩
  · refine ⟨rest', first inside fun d mem => stop d ?_, rfl⟩
    rw [List.head?_append, Option.mem_def.1 mem]
    rfl
  · by_cases atSeam : behind = []
    · subst atSeam
      exact ⟨[], first (by simp) (by simp), rfl⟩
    · have closes : Closes front := by
        unfold Closes at closes
        rw [quoting_append, closes_of_blank isBlank] at closes
        exact closes
      have none := spelt.cut atSeam closes unjoined.behind.before
      rw [none, List.append_nil] at solid
      exact absurd isBlank solid

theorem Lexeme.append_unjoined {kind : TokenKind} {rest : List Char} (h : Lexeme kind text rest)
    (unjoined : Unjoined text more) : Lexeme kind (text ++ more) (rest ++ more) := by
  obtain ⟨blanks, lexeme, grows, rfl, isBlank, spelt, stop⟩ := lexeme_iff_spelt.1 h
  refine lexeme_iff_spelt.2 ⟨blanks, lexeme, grows, by simp, isBlank, spelt, fun d mem => ?_⟩
  cases rest with
  | cons c others => exact stop d mem
  | nil =>
    rw [List.append_nil] at unjoined
    obtain ⟨c, last⟩ : ∃ c, c ∈ lexeme.getLast? := by
      obtain ⟨c, others, rfl, -⟩ := spelt.head
      exact ⟨_, List.getLast?_cons⟩
    by_contra more
    have joined := spelt.joins_of_grows last (by simpa using more)
    rw [unjoined.behind c last d mem] at joined
    cases joined

theorem seam_unjoined : Seam more fun text => Unjoined text more where
  behind unjoined lexeme := by
    obtain ⟨blanks, spelling, -, rfl, -⟩ := lexeme_iff_spelt.1 lexeme
    exact unjoined.behind.behind
  keep unjoined lexeme := lexeme.append_unjoined unjoined
  cut unjoined closes solid lexeme := lexeme.of_unjoined closes unjoined solid

/-- The tokens of two texts that do not join are those of both. -/
theorem scans_unjoined_iff (closes : Closes text) (unjoined : Unjoined text more)
    {kinds : List TokenKind} : Scans (text ++ more) kinds ↔
      ∃ front others, kinds = front ++ others ∧ Scans text front ∧ Scans more others :=
  seam_unjoined.scans_iff unjoined closes

end Seam

end ScriptHost.Scanner
