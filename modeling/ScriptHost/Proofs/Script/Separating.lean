import ScriptHost.Proofs.Script.Scanning
/-!
# Tokens on both sides of a blank

A blank ends every token except a quoted one. So where a text has closed all quotes that it
opened, a blank keeps it apart from what follows: neither side has a part in the tokens of the
other. A text that is made of tokens has closed its quotes, since none of its tokens leaves any
open.

**Results.**
* `Scanner.Seam.scans_iff`: where no token reaches over the seam of two texts, their tokens are
  those of both.
* `Scanner.Scans.closes`: a text that is made of tokens closes its quotes.
* `Scanner.scans_blank_iff`: the tokens of a text that closes its quotes, of a blank and of more
  text are the tokens of the two texts.
* `Scanner.Scans.append`: the tokens of a text of whole lines and of a text behind it are those
  of both.
-/
namespace ScriptHost.Scanner

/-! ## Blanks around tokens -/

theorem Scans.blank {text : List Char} {kinds : List TokenKind} (h : Scans text kinds)
    {blank : List Char} (isBlank : Text.allBlank blank) : Scans (blank ++ text) kinds := by
  cases h with
  | done isBlank' => exact .done (Text.allBlank_append.2 ⟨isBlank, isBlank'⟩)
  | more lexeme scans => exact .more (lexeme.blank isBlank) scans

theorem Lexeme.of_blank {kind : TokenKind} {blank text rest : List Char}
    (h : Lexeme kind (blank ++ text) rest) (isBlank : Text.allBlank blank) :
    Lexeme kind text rest := by
  have all : ∀ c ∈ blank, Text.isBlank c = true := List.all_eq_true.1 isBlank
  rw [lexeme_iff, List.dropWhile_append_of_pos all] at h
  exact lexeme_iff.2 h

theorem scans_blanks_iff {blank text : List Char} (isBlank : Text.allBlank blank)
    {kinds : List TokenKind} : Scans (blank ++ text) kinds ↔ Scans text kinds := by
  refine ⟨fun h => ?_, fun h => h.blank isBlank⟩
  cases h with
  | done all => exact .done (Text.allBlank_append.1 all).2
  | more lexeme scans => exact .more (lexeme.of_blank isBlank) scans

/-- A token ends where the character after it stands as its first did. -/
theorem Lexeme.quoting {kind : TokenKind} {text rest : List Char} (h : Lexeme kind text rest) :
    quoting none text = Scanner.quoting none rest := by
  obtain ⟨c, after, eq, place, behind, made, rfl⟩ := lexeme_iff.1 h
  rw [← quoting_dropWhile not_isBlank_quote text, eq]
  exact token_quoting made

theorem Scans.closes {text : List Char} {kinds : List TokenKind} (h : Scans text kinds) :
    Closes text := by
  induction h with
  | done isBlank => exact closes_of_blank isBlank
  | more lexeme _ ih => exact lexeme.quoting.trans ih

theorem Scans.of_allBlank {text : List Char} {kinds : List TokenKind} (h : Scans text kinds)
    (isBlank : Text.allBlank text) : kinds = [] := by
  cases h with
  | done => rfl
  | more lexeme scans =>
    obtain ⟨c, others, eq, -⟩ := lexeme_iff.1 lexeme
    rw [List.dropWhile_eq_nil_iff.2 (List.all_eq_true.1 isBlank)] at eq
    cases eq

theorem Scans.unique {text : List Char} {kinds kinds' : List TokenKind} (h : Scans text kinds)
    (h' : Scans text kinds') : kinds = kinds' := by
  induction h generalizing kinds' with
  | done isBlank => exact (h'.of_allBlank isBlank).symm
  | more lexeme _ ih =>
    obtain ⟨others, rfl, scans⟩ := h'.after lexeme
    rw [ih scans]

/-! ## The seam of two texts -/

/-- No token reaches over the seam of a text that `ends` so and of `more`. -/
structure Seam (more : List Char) (ends : List Char → Prop) : Prop where
  behind {kind text rest} : ends text → Lexeme kind text rest → ends rest
  keep {kind text rest} : ends text → Lexeme kind text rest →
    Lexeme kind (text ++ more) (rest ++ more)
  cut {kind text rest} : ends text → Closes text → ¬ Text.allBlank text →
    Lexeme kind (text ++ more) rest → ∃ rest', Lexeme kind text rest' ∧ rest = rest' ++ more

/-- The tokens of two texts are those of both if the first closes its quotes and no token reaches
over the seam. -/
theorem Seam.scans_iff {text more : List Char} {ends : List Char → Prop} (seam : Seam more ends)
    (parts : ends text) (closes : Closes text) {kinds : List TokenKind} :
    Scans (text ++ more) kinds ↔
      ∃ front others, kinds = front ++ others ∧ Scans text front ∧ Scans more others := by
  constructor
  · intro h
    generalize eq : text ++ more = whole at h
    induction h generalizing text with
    | done all =>
      subst eq
      obtain ⟨first, rest⟩ := Text.allBlank_append.1 all
      exact ⟨[], [], rfl, .done first, .done rest⟩
    | @more kind _ rest kinds lexeme scans ih =>
      subst eq
      by_cases solid : Text.allBlank text
      · exact ⟨[], _, rfl, .done solid, .more (lexeme.of_blank solid) scans⟩
      · obtain ⟨rest', short, rfl⟩ := seam.cut parts closes solid lexeme
        have closes' : Closes rest' := short.quoting.symm.trans closes
        obtain ⟨front, others, rfl, scansFront, scansMore⟩ :=
          ih (seam.behind parts short) closes' rfl
        exact ⟨kind :: front, others, rfl, .more short scansFront, scansMore⟩
  · rintro ⟨front, others, rfl, scans, scansMore⟩
    clear closes
    induction scans with
    | done isBlank => exact scansMore.blank isBlank
    | more lexeme _ ih => exact .more (seam.keep parts lexeme) (ih (seam.behind parts lexeme))

section Blank

variable {text more : List Char} {blank : Char}

theorem dropWhile_append_solid {first : Char} {others : List Char}
    (eq : text.dropWhile Text.isBlank = first :: others) (more : List Char) :
    (text ++ more).dropWhile Text.isBlank = first :: (others ++ more) := by
  rw [List.dropWhile_append, eq]
  rfl

theorem Lexeme.append_blank {kind : TokenKind} {rest : List Char} (h : Lexeme kind text rest)
    (isBlank : Text.isBlank blank) :
    Lexeme kind (text ++ blank :: more) (rest ++ blank :: more) := by
  obtain ⟨c, after, eq, place, behind, made, rfl⟩ := lexeme_iff.1 h
  obtain ⟨last, made⟩ :=
    (token_agrees place place place c (parted_cons isBlank more)).1 _ _ made
  exact lexeme_of_dropWhile (dropWhile_append_solid eq _) made

/-- The first token of a text that closes its quotes is there without what a blank keeps apart
from it. -/
theorem Lexeme.of_append_blank {kind : TokenKind} {rest : List Char}
    (h : Lexeme kind (text ++ blank :: more) rest) (closes : Closes text)
    (isBlank : Text.isBlank blank) (solid : ¬ Text.allBlank text) :
    ∃ rest', Lexeme kind text rest' ∧ rest = rest' ++ blank :: more := by
  obtain ⟨c, others, eq⟩ : ∃ c others, text.dropWhile Text.isBlank = c :: others := by
    refine List.exists_cons_of_ne_nil fun none => solid ?_
    exact List.all_eq_true.2 (List.dropWhile_eq_nil_iff.1 none)
  have closes : Closes (c :: others) := by
    rw [← eq]
    exact (quoting_dropWhile not_isBlank_quote text).trans closes
  obtain ⟨d, ⟨longer, after⟩, eq', place, behind, made, rfl⟩ := lexeme_iff.1 h
  rw [dropWhile_append_solid eq, List.cons.injEq] at eq'
  obtain ⟨rfl, rfl⟩ := eq'
  have agrees : Agrees (blank :: more) (Closes (c :: others)) (token place c ⟨others, after⟩)
      (token place c ⟨others ++ blank :: more, after⟩) :=
    token_agrees place place after c (parted_cons isBlank more)
  obtain ⟨⟨kind', last⟩, short⟩ := agrees.2 closes _ made
  obtain ⟨at_, long⟩ := agrees.1 _ _ short
  rw [made] at long
  cases long
  exact ⟨last.rest, lexeme_of_dropWhile eq short, rfl⟩

theorem seam_blank (isBlank : Text.isBlank blank) : Seam (blank :: more) fun _ => True where
  behind _ _ := trivial
  keep _ lexeme := lexeme.append_blank isBlank
  cut _ closes solid lexeme := lexeme.of_append_blank closes isBlank solid

/-- The tokens of a text that closes its quotes, of a blank and of more text are the tokens of
the two texts. -/
theorem scans_blank_iff (closes : Closes text) (isBlank : Text.isBlank blank)
    {kinds : List TokenKind} : Scans (text ++ blank :: more) kinds ↔
      ∃ front others, kinds = front ++ others ∧ Scans text front ∧ Scans more others := by
  have all : Text.allBlank [blank] := Text.allBlank_cons.2 ⟨isBlank, rfl⟩
  have behind {others : List TokenKind} : Scans (blank :: more) others ↔ Scans more others :=
    scans_blanks_iff all
  simp only [(seam_blank isBlank).scans_iff trivial closes, behind]

theorem Scans.append_blank {kinds others : List TokenKind} (h : Scans text kinds)
    (h' : Scans more others) (isBlank : Text.isBlank blank) :
    Scans (text ++ blank :: more) (kinds ++ others) :=
  (scans_blank_iff h.closes isBlank).2 ⟨kinds, others, rfl, h, h'⟩

/-- The tokens of two texts with blanks between them are those of both. -/
theorem scans_between_iff {blanks : List Char} (closes : Closes text)
    (isBlank : Text.allBlank blanks) (notNil : blanks ≠ []) {kinds : List TokenKind} :
    Scans (text ++ (blanks ++ more)) kinds ↔
      ∃ front others, kinds = front ++ others ∧ Scans text front ∧ Scans more others := by
  obtain ⟨first, rest, rfl⟩ := List.exists_cons_of_ne_nil notNil
  obtain ⟨isBlank, all⟩ := Text.allBlank_cons.1 isBlank
  rw [List.cons_append, scans_blank_iff closes isBlank]
  simp only [scans_blanks_iff all]

theorem scans_append_blanks {blanks : List Char} (closes : Closes text)
    (isBlank : Text.allBlank blanks) {kinds : List TokenKind} :
    Scans (text ++ blanks) kinds ↔ Scans text kinds := by
  cases blanks with
  | nil => rw [List.append_nil]
  | cons first others =>
    obtain ⟨isBlank, all⟩ := Text.allBlank_cons.1 isBlank
    rw [scans_blank_iff closes isBlank]
    constructor
    · rintro ⟨front, none, rfl, scans, scans'⟩
      rwa [scans'.of_allBlank all, List.append_nil]
    · intro scans
      exact ⟨kinds, [], (List.append_nil _).symm, scans, .done all⟩

end Blank

/-! ## Whole lines -/

/-- Whether a text ends its last line, if it has one. -/
def WholeLines (text : List Char) : Prop := text = [] ∨ text.getLast? = some '\n'

theorem endsWith_newline {text : String} : text.endsWith "\n" = true ↔
    text.toList.getLast? = some '\n' := by
  have slice := @String.Slice.endsWith_string_iff "\n" text.toSlice
  have suffix : text.endsWith "\n" = true ↔ ['\n'] <:+ text.toList := by simpa using slice
  rw [suffix, List.getLast?_eq_some_iff]
  exact ⟨fun ⟨front, eq⟩ => ⟨front, eq.symm⟩, fun ⟨front, eq⟩ => ⟨front, eq.symm⟩⟩

/-- The tokens of a text of whole lines and of a text behind it are those of both. -/
theorem Scans.append {first second : List Char} {kinds others : List TokenKind}
    (h : Scans first kinds) (h' : Scans second others) (whole : WholeLines first) :
    Scans (first ++ second) (kinds ++ others) := by
  rcases whole with rfl | ends
  · rw [h.of_allBlank rfl]
    exact h'
  · obtain ⟨front, rfl⟩ := List.getLast?_eq_some_iff.1 ends
    have newline : Text.allBlank ['\n'] := by decide
    have scans := (scans_append_blanks (h.closes.of_append_blanks newline) newline).1 h
    rw [List.append_assoc, List.singleton_append]
    exact scans.append_blank h' (by decide)

end ScriptHost.Scanner

namespace ScriptHost

/-! ## Words -/

/-- Whether a name is read as one word. -/
def IsWord (name : String) : Prop :=
  ∃ c rest, name.toList = c :: rest ∧ c.isDigit = false ∧ c ≠ '-' ∧ ∀ d ∈ c :: rest, isWordChar d

namespace Scanner

theorem lexeme_equals (more : List Char) : Lexeme .equals ('=' :: more) more :=
  lexeme_of_token (by decide) nofun fun _ after => ⟨after, rfl⟩

theorem lexeme_openBrace (more : List Char) : Lexeme .openBrace ('\x7b' :: more) more :=
  lexeme_of_token (by decide) nofun fun _ after => ⟨after, rfl⟩

theorem lexeme_word {name : String} (isWord : IsWord name) {d : Char} (stop : isWordChar d = false)
    (more : List Char) : Lexeme (.word name) (name.toList ++ d :: more) (d :: more) := by
  obtain ⟨c, rest, eq, notDigit, notMinus, word⟩ := isWord
  have named : name = String.ofList (c :: rest) := by rw [← eq, String.ofList_toList]
  have isWord := word c (.head _)
  have solid {d : Char} (h : isWordChar d = false) : c ≠ d := by
    rintro rfl
    rw [isWord] at h
    cases h
  have run : ∀ d ∈ rest, isWordChar d = true := fun d mem => word d (.tail _ mem)
  have noNumber : startsNumber c (rest ++ d :: more) = false := by
    simp [startsNumber, notDigit, notMinus]
  have cut : (rest ++ d :: more).takeWhile isWordChar = rest ∧
      (rest ++ d :: more).dropWhile isWordChar = d :: more := by
    rw [List.takeWhile_append_of_pos run, List.dropWhile_append_of_pos run]
    simp [stop]
  rw [eq, named, List.cons_append]
  refine lexeme_of_token (isBlank_of_isWordChar isWord) nofun fun place after =>
    ⟨Cursor.walk after rest, ?_⟩
  unfold token
  simp only [Cursor.span, cut.1, cut.2]
  rw [if_neg (solid (by decide)), if_neg (solid (by decide)), if_neg (solid (by decide)),
    if_neg (solid (by decide)),
    if_neg (solid (by decide)), if_neg (solid (by decide)), if_neg (solid (by decide)),
      if_neg (by simp [noNumber]),
    if_pos isWord]

theorem quotedToken_kind {place : Position} {opening behind : Cursor} {kind : TokenKind}
    (h : quotedToken place opening = .ok (kind, behind)) : ∃ content, kind = .text content := by
  unfold quotedToken at h
  split at h
  · cases h
    exact ⟨_, rfl⟩
  · cases h

/-- A word is made of word characters, or stands between angle brackets. -/
theorem token_word {place : Position} {c : Char} {after behind : Cursor} {name : String}
    (h : token place c after = .ok (.word name, behind)) :
    (isWordChar c ∧ after.rest.dropWhile isWordChar = behind.rest) ∨
      (c = '<' ∧ after.rest.dropWhile isWordChar = '>' :: behind.rest) := by
  have text {place : Position} {opening : Cursor} :
      quotedToken place opening ≠ .ok (.word name, behind) := fun h => by
    obtain ⟨content, eq⟩ := quotedToken_kind h
    cases eq
  have number {run : List Char} : number? run ≠ some (.word name) := by
    unfold number?
    split <;> simp
  have marked {kind : TokenKind} {message : String} {last : Cursor} (other : kind ≠ .word name) :
      (if (after.rest.takeWhile isWordChar).isEmpty then refuse place message
        else .ok (kind, last)) ≠ .ok (.word name, behind) := by
    by_cases empty : (after.rest.takeWhile isWordChar).isEmpty <;> simp [empty, refuse, other]
  simp only [token, Cursor.span] at h
  iterate 3
    split at h
    · cases h
  split at h
  · exact absurd h text
  split at h
  · split at h
    · exact absurd h text
    · exact absurd h (marked (by simp))
  split at h
  · exact absurd h (marked (by simp))
  split at h
  · rename_i angle
    split at h
    · rename_i closed
      cases h
      exact .inr ⟨angle, closed⟩
    · cases h
  split at h
  · split at h
    · rename_i found
      cases h
      exact absurd found number
    · cases h
  split at h
  · rename_i word
    cases h
    exact .inl ⟨word, rfl⟩
  · cases h

/-- A text that is one word holds neither quotes nor comments. -/
theorem Scans.word_plain {text : List Char} {name : String} (h : Scans text [.word name]) :
    '/' ∉ text ∧ '"' ∉ text := by
  have chars : ∀ d ∈ text, Text.isBlank d ∨ isWordChar d ∨ d = '<' ∨ d = '>' := by
    cases h with
    | more lexeme scans =>
      obtain ⟨c, after, eq, place, behind, made, rfl⟩ := lexeme_iff.1 lexeme
      have blank : ∀ d ∈ behind.rest, Text.isBlank d := by
        cases scans with
        | done isBlank => exact List.all_eq_true.1 isBlank
      have inside (d) (mem : d ∈ after.rest) :
          isWordChar d ∨ d ∈ after.rest.dropWhile isWordChar := by
        rw [← List.takeWhile_append_dropWhile (p := isWordChar) (l := after.rest)] at mem
        exact (List.mem_append.1 mem).imp_left List.mem_takeWhile_imp
      intro d mem
      rw [← List.takeWhile_append_dropWhile (p := Text.isBlank) (l := text), eq] at mem
      rcases List.mem_append.1 mem with mem | mem
      · exact .inl (List.mem_takeWhile_imp mem)
      · rcases token_word made with ⟨word, left⟩ | ⟨angle, left⟩ <;> grind
  constructor
  · intro mem
    exact absurd (chars _ mem) (by decide)
  · intro mem
    exact absurd (chars _ mem) (by decide)

end Scanner
end ScriptHost
