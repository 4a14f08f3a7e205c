import ScriptHost.Proofs.Assembly.Spacing
/-!
# Clean sources

A source is clean if no comment starts in it outside quotes and it is a run of lines each of which
ends in a character that is no blank. Where the quotes are is told by `Scanner.quoting`, the way
the scanner sees them: a quote that is never closed stays open up to the end of the source.

Taking comments out can put no two characters side by side that start one: the slash in front of
a comment would have started a comment itself. Neither can tidying. What it drops are blanks, and
no sign of a comment is written over blanks; a backslash at the end of a line keeps a blank to
escape, since the line break behind it stays, so quotes open and close where they did.

**Results.**
* `Comments.commentFree_erase`, `Comments.CommentFree.laid`: no comment is left, and tidying makes
  none.
* `stripComments_eq_self_iff`: stripping leaves exactly the clean sources as they are.
* `stripped_source_is_clean`: what it gives for any source is clean, so stripping it again changes
  nothing, and only what is clean stays as it is.
-/
namespace ScriptHost

open Scanner

namespace Comments

/-! ## Texts without comments -/

/-- Whether no comment starts in a text outside quotes, if its first character stands in this
place. -/
def CommentFree (start : Option Bool) (text : List Char) : Prop :=
  ∀ front c more, text = front ++ '/' :: c :: more → c = '/' ∨ c = '*' →
    (quoting start front).isSome

theorem commentFree_nil (start : Option Bool) : CommentFree start [] := by
  intro front c more eq
  simp at eq

theorem commentFree_cons {start : Option Bool} {c : Char} {rest : List Char} :
    CommentFree start (c :: rest) ↔
      (start = none → c = '/' → rest.head? ≠ some '/' ∧ rest.head? ≠ some '*') ∧
        CommentFree (quoteStep start c) rest := by
  constructor
  · intro free
    refine ⟨?_, fun front d more eq sign => free (c :: front) d more (by rw [eq]; rfl) sign⟩
    rintro rfl rfl
    cases rest with
    | nil => simp
    | cons d more =>
      have noSign (sign : d = '/' ∨ d = '*') : False :=
        Bool.false_ne_true (free [] d more rfl sign)
      exact ⟨fun eq => noSign (.inl (Option.some.inj eq)),
        fun eq => noSign (.inr (Option.some.inj eq))⟩
  · rintro ⟨first, free⟩ front d more eq sign
    cases front with
    | nil =>
      cases eq
      cases start with
      | some escaped => rfl
      | none =>
        obtain ⟨noSlash, noStar⟩ := first rfl rfl
        exact (sign.elim (fun same => noSlash (by rw [same]; rfl))
          fun same => noStar (by rw [same]; rfl)).elim
    | cons c' front =>
      cases eq
      exact free front d more rfl sign

/-- Blanks only hand on where the text behind them stands. -/
theorem commentFree_blanks {blanks : List Char} (isBlank : Text.allBlank blanks)
    {start : Option Bool} {text : List Char} :
    CommentFree start (blanks ++ text) ↔ CommentFree (quoting start blanks) text := by
  induction blanks generalizing start with
  | nil => rfl
  | cons c rest ih =>
    obtain ⟨first, isBlank⟩ := Text.allBlank_cons.1 isBlank
    have noSlash := (not_isBlank_sign first).1
    rw [List.cons_append, commentFree_cons, ih isBlank]
    exact and_iff_right fun _ slash => absurd slash noSlash

/-! ## Taking comments out -/

theorem commentFree_erase (mode : Mode) (text : List Char) :
    CommentFree mode.quotes (erase mode text) := by
  fun_induction erase mode text with
  | case1 => exact commentFree_nil _
  | case2 rest ih | case3 rest ih => exact ih
  | case4 c rest noLine noBlock ih =>
    refine commentFree_cons.2 ⟨?_, (keeps_code c).quotes ▸ ih⟩
    -- The character behind a slash is kept: together they would start a comment otherwise.
    rintro - rfl
    cases rest with
    | nil => simp [erase]
    | cons d others =>
      have noSlash : d ≠ '/' := fun same => noLine others rfl (by rw [same])
      have noStar : d ≠ '*' := fun same => noBlock others rfl (by rw [same])
      rw [if_neg (by decide), erase_code (fun _ slash _ => noSlash slash) fun _ slash _ =>
        noSlash slash]
      simp [noSlash, noStar]
  | case5 escaped c rest ih =>
    exact commentFree_cons.2 ⟨by simp [Mode.quotes], (keeps_quoted escaped c).quotes ▸ ih⟩
  | case6 rest ih | case8 closing rest ih => exact commentFree_cons.2 ⟨by simp, ih⟩
  | case7 c rest other ih => exact ih
  | case9 closing c rest other ih =>
    have outside : (insideBlock closing c).quotes = none := by
      unfold insideBlock
      split <;> rfl
    rwa [outside] at ih

/-- The place where a character stands that is kept. -/
def Mode.ofQuotes : Option Bool → Mode
  | none => .code
  | some escaped => .quoted escaped

/-- A text without comments is left as it is. -/
theorem CommentFree.erase_eq {start : Option Bool} {text : List Char}
    (free : CommentFree start text) : erase (.ofQuotes start) text = text := by
  induction text generalizing start with
  | nil => rw [erase]
  | cons c rest ih =>
    obtain ⟨first, free⟩ := commentFree_cons.1 free
    have same := ih free
    cases start with
    | none =>
      have next : (if c = '"' then Mode.quoted false else .code) =
          .ofQuotes (quoteStep none c) := by
        simp only [quoteStep]
        split <;> rfl
      rw [Mode.ofQuotes, erase_code, next, same]
      · rintro others rfl rfl
        exact (first rfl rfl).1 rfl
      · rintro others rfl rfl
        exact (first rfl rfl).2 rfl
    | some escaped =>
      have next : insideQuotes escaped c = .ofQuotes (quoteStep (some escaped) c) := by
        cases escaped <;> grind [insideQuotes, quoteStep, Mode.ofQuotes]
      rw [Mode.ofQuotes, erase, next, same]

/-! ## Tidying -/

theorem CommentFree.laid {depth : Nat} {broken : Bool} {blanks text : List Char}
    {start : Option Bool} (isBlank : Text.allBlank blanks)
    (free : CommentFree start (gap depth broken blanks ++ text)) :
    CommentFree start (laid depth broken blanks text) := by
  induction text generalizing broken blanks start with
  | nil => exact commentFree_nil start
  | cons c rest ih =>
    rcases Text.break_blank_solid c with rfl | ⟨notBreak, isBlank'⟩ | solid
    · refine ih rfl ?_
      rw [List.append_cons, commentFree_blanks (allBlank_gap_break isBlank),
        quoting_blanks (allBlank_gap_break isBlank) (by simp)] at free
      rwa [commentFree_blanks (allBlank_gap rfl), quoting_blanks (allBlank_gap rfl) (by simp [gap])]
    · rw [laid_blank notBreak isBlank']
      refine ih (Text.allBlank_concat.2 ⟨isBlank, isBlank'⟩) ?_
      rwa [gap_concat, ← List.append_cons]
    · rw [commentFree_blanks (allBlank_gap isBlank), commentFree_cons] at free
      obtain ⟨first, free⟩ := free
      rw [laid_solid solid, commentFree_blanks (allBlank_gap isBlank), commentFree_cons]
      refine ⟨fun outside slash => ?_, ih rfl free⟩
      -- What comes to stand behind the character is what stood there, or a blank.
      obtain ⟨noSlash, noStar⟩ := first outside slash
      have head := @head_laid depth rest
      constructor
      · intro eq
        exact (head '/' eq).elim noSlash (by decide)
      · intro eq
        exact (head '*' eq).elim noStar (by decide)

theorem CommentFree.append_blanks {start : Option Bool} {text blanks : List Char}
    (free : CommentFree start text) (isBlank : Text.allBlank blanks) :
    CommentFree start (text ++ blanks) := by
  induction text generalizing start with
  | nil =>
    have alone := (@commentFree_blanks blanks isBlank start []).2 (commentFree_nil _)
    rwa [List.append_nil] at alone
  | cons c rest ih =>
    obtain ⟨first, free⟩ := commentFree_cons.1 free
    refine commentFree_cons.2 ⟨fun outside slash => ?_, ih free⟩
    cases rest with
    | nil => exact apart_blanks ['/'] isBlank rfl
    | cons d others => exact first outside slash

theorem CommentFree.tidy {text : List Char} (free : CommentFree none text) :
    CommentFree none (tidy text) := by
  have behindBreak : CommentFree none (gap 0 true [] ++ text) := by
    rwa [commentFree_blanks (allBlank_gap rfl), quoting_blanks (allBlank_gap rfl) (by simp [gap])]
  have whole := (behindBreak.laid rfl).append_blanks (show Text.allBlank ['\n'] by decide)
  rw [← tidy_eq_laid] at whole
  exact (commentFree_cons.1 whole).2

/-! ## Lines -/

/-- Whether a text is one line that holds more than blanks and does not end in one. -/
def TidyLine (line : List Char) : Prop :=
  '\n' ∉ line ∧ ∃ front c, line = front ++ [c] ∧ Text.isBlank c = false

theorem tidyLine_trimEnd {line : List Char} (oneLine : '\n' ∉ line)
    (notBlank : ¬ Text.allBlank line) : TidyLine (Text.trimEnd line) := by
  obtain ⟨blanks, isBlank, eq⟩ := Text.exists_trimEnd line
  have some : Text.trimEnd line ≠ [] := fun none =>
    notBlank (List.all_eq_true.2 (Text.trimEnd_eq_nil_iff.1 none))
  obtain ⟨front, c, last⟩ := (List.eq_nil_or_concat' _).resolve_left some
  refine ⟨fun mem => oneLine (eq ▸ List.mem_append_left _ mem), front, c, last, ?_⟩
  cases blank : Text.isBlank c with
  | false => rfl
  | true =>
    -- A blank at the end would have been trimmed too.
    have isBlank : Text.allBlank [c] := Text.allBlank_cons.2 ⟨blank, rfl⟩
    have shorter := Text.trimEnd_append_blanks front isBlank
    rw [← last, Text.trimEnd_trimEnd] at shorter
    obtain ⟨others, -, longer⟩ := Text.exists_trimEnd front
    have lengths := congrArg List.length longer
    rw [← shorter, last] at lengths
    simp at lengths

theorem tidyLine_tidyLines (text : List Char) : ∀ line ∈ tidyLines text, TidyLine line := by
  have one {line : List Char} (oneLine : '\n' ∉ line) : ∀ kept ∈ tidyLine line, TidyLine kept := by
    unfold tidyLine
    split
    · simp
    · rename_i notBlank
      exact List.forall_mem_singleton.2 (tidyLine_trimEnd oneLine notBlank)
  by_cases broken : '\n' ∈ text
  · obtain ⟨line, more, rfl, oneLine⟩ := List.eq_append_cons_of_mem broken
    rw [tidyLines_line oneLine]
    exact List.forall_mem_append.2 ⟨one oneLine, tidyLine_tidyLines more⟩
  · rw [tidyLines_last broken]
    exact one broken
termination_by text.length

theorem tidyLines_of_tidy {lines : List (List Char)} (tidied : ∀ line ∈ lines, TidyLine line) :
    tidyLines (lines.flatMap (· ++ ['\n'])) = lines := by
  induction lines with
  | nil => simp [tidyLines, Text.lines]
  | cons line rest ih =>
    obtain ⟨⟨oneLine, front, c, rfl, solid⟩, others⟩ := List.forall_mem_cons.1 tidied
    have notBlank : ¬ Text.allBlank (front ++ [c]) := by simp [Text.allBlank, solid]
    rw [List.flatMap_cons, List.append_assoc, List.singleton_append, tidyLines_line oneLine,
      tidyLine, if_neg notBlank, Text.trimEnd_append solid, ih others]
    rfl

end Comments

open Comments

/-! ## Sources -/

/-- A clean source: comments start nowhere outside quotes, be they closed or not, and every line
ends, with a character before its break that is no blank. -/
structure Clean (source : String) : Prop where
  commentFree : CommentFree none source.toList
  tidied : ∃ lines : List (List Char), source.toList = lines.flatMap (· ++ ['\n']) ∧
    ∀ line ∈ lines, TidyLine line

section Sources

variable {source : String}

theorem clean_stripComments (source : String) : Clean (stripComments source) where
  commentFree := by
    rw [stripComments_eq, String.toList_ofList]
    exact (commentFree_erase .code source.toList).tidy
  tidied := by
    refine ⟨tidyLines (erase .code source.toList), ?_, tidyLine_tidyLines _⟩
    rw [stripComments_eq, String.toList_ofList]
    rfl

theorem Clean.stripComments_eq (clean : Clean source) : stripComments source = source := by
  obtain ⟨lines, eq, tidied⟩ := clean.tidied
  have erased : erase .code source.toList = source.toList := clean.commentFree.erase_eq
  rw [ScriptHost.stripComments_eq, erased, tidy, eq, tidyLines_of_tidy tidied, ← eq,
    String.ofList_toList]

theorem stripComments_eq_self_iff : stripComments source = source ↔ Clean source :=
  ⟨fun same => same ▸ clean_stripComments source, Clean.stripComments_eq⟩

instance (source : String) : Decidable (Clean source) :=
  decidable_of_iff _ stripComments_eq_self_iff

/-- Whatever the source: without its comments it is clean, with no comment outside quotes, no
blank line and no blank at the end of a line, and to strip it again changes nothing. Nothing is
stripped of a source that was clean already, and of that only. -/
theorem stripped_source_is_clean (source : String) :
    Clean (stripComments source) ∧ stripComments (stripComments source) = stripComments source ∧
      (stripComments source = source ↔ Clean source) := by
  have clean := clean_stripComments source
  exact ⟨clean, clean.stripComments_eq, stripComments_eq_self_iff⟩

end Sources

/-- A comment over two lines, one between quotes and one behind them, a backslash that escapes a
blank at the end of a line, and a quote that is never closed. -/
example : stripComments "print/* a\n */ \"b // \\  \n\n\" // c\n  \n\"/* d  " =
    "print\n \"b // \\\n\"\n\"/* d\n" := by
  decide +kernel

end ScriptHost
