import ScriptHost.Proofs.Assembly.Laying
/-!
# Quotes behind a backslash

A text can be put between quotes by writing a backslash before each quote of it and leaving all
else as it is. That is read back if the text has no backslash of its own. If it has one, it never
is: to stand for itself a backslash needs another one, and none is written.

**Results.**
* `Scanner.count_unquote`: a quoted text needs as many backslashes as it is read as, and one more
  for each of those and for each quote.
* `unquote_laid_escaped`: without backslashes the text is read back as it is laid.
* `laid_eq_self_iff`: laying a text that is indented keeps it exactly if it is one line.
-/
namespace ScriptHost

open Scanner

def escapeQuotes (text : List Char) : List Char :=
  text.flatMap fun c => if c = '"' then ['\\', '"'] else [c]

theorem escapeQuotes_cons (c : Char) (rest : List Char) :
    escapeQuotes (c :: rest) = (if c = '"' then ['\\', '"'] else [c]) ++ escapeQuotes rest :=
  List.flatMap_cons

theorem escapeQuotes_append (front more : List Char) :
    escapeQuotes (front ++ more) = escapeQuotes front ++ escapeQuotes more :=
  List.flatMap_append

theorem escapeQuotes_eq_self {text : List Char} (plain : '"' ∉ text) :
    escapeQuotes text = text := by
  induction text with
  | nil => rfl
  | cons c rest ih =>
    simp only [List.mem_cons, not_or] at plain
    rw [escapeQuotes_cons, if_neg (Ne.symm plain.1), ih plain.2, List.singleton_append]

/-! ## Counting backslashes -/

theorem count_escapeQuotes (text : List Char) :
    (escapeQuotes text).count '\\' = text.count '\\' + text.count '"' := by
  induction text with
  | nil => rfl
  | cons c rest ih =>
    rw [escapeQuotes_cons, List.count_append, ih]
    by_cases quote : c = '"'
    · subst quote
      simp
      omega
    · rw [if_neg quote]
      simp [List.count_cons, quote]
      omega

/-- Each backslash that a quoted text is read as stands behind another, and so does each quote. -/
theorem Scanner.count_unquote {escaped : Bool} {body inside : List Char}
    (h : unquote escaped body = some inside) :
    2 * inside.count '\\' + inside.count '"' ≤ body.count '\\' + if escaped then 1 else 0 := by
  fun_induction unquote escaped body generalizing inside with
  | case1 => cases h
  | case2 =>
    cases h
    simp
  | case3 c rest ih =>
    obtain ⟨inside, read, rfl⟩ := Option.map_eq_some_iff.1 h
    have bound := ih read
    -- The backslash before this character pays for it.
    generalize meant : (if c = 'n' then '\n' else if c = 't' then '\t' else c) = d
    have same_or_other : d = c ∨ d ≠ '\\' ∧ d ≠ '"' := by
      by_cases n : c = 'n' <;> by_cases t : c = 't' <;> simp [← meant, n, t]
    simp only [List.count_cons, beq_iff_eq, Bool.false_eq_true, if_false, if_true] at bound ⊢
    rcases same_or_other with same | ⟨noSlash, noQuote⟩
    · rw [same]
      by_cases slash : c = '\\' <;> by_cases quote : c = '"' <;> grind
    · rw [if_neg noSlash, if_neg noQuote]
      omega
  | case4 rest ih =>
    have bound := ih h
    simp only [List.count_cons, beq_self_eq_true, Bool.false_eq_true, if_false, if_true] at bound ⊢
    omega
  | case5 => cases h
  | case6 c rest noSlash noQuote ih =>
    obtain ⟨inside, read, rfl⟩ := Option.map_eq_some_iff.1 h
    have bound := ih read
    simpa [List.count_cons, noSlash, noQuote] using bound

/-! ## Laid texts -/

section Laid

variable {depth : Nat} {broken : Bool} {blanks : List Char}

theorem count_allBlank {c : Char} (solid : Text.isBlank c = false)
    (isBlank : Text.allBlank blanks) : blanks.count c = 0 := by
  refine List.count_eq_zero.2 fun mem => ?_
  rw [List.all_eq_true.1 isBlank c mem] at solid
  cases solid

/-- Laying drops and adds blanks only. -/
theorem count_laid {c : Char} (solid : Text.isBlank c = false) (isBlank : Text.allBlank blanks)
    (text : List Char) : (laid depth broken blanks text).count c = text.count c := by
  induction text generalizing broken blanks with
  | nil => rfl
  | cons d rest ih =>
    have other (isBlank : Text.isBlank d) : d ≠ c := by
      rintro rfl
      rw [isBlank] at solid
      cases solid
    rcases Text.break_blank_solid d with rfl | ⟨notBreak, isBlank'⟩ | solid'
    · rw [laid_break, ih rfl, List.count_cons_of_ne (other (by decide))]
    · rw [laid_blank notBreak isBlank', ih (Text.allBlank_concat.2 ⟨isBlank, isBlank'⟩),
        List.count_cons_of_ne (other isBlank')]
    · rw [laid_solid solid', List.count_append, count_allBlank solid (allBlank_gap isBlank),
        List.count_cons, List.count_cons, ih rfl, Nat.zero_add]

theorem unquote_plain {front : List Char} (plain : '\\' ∉ front ∧ '"' ∉ front) (rest : List Char) :
    unquote false (front ++ rest) = (unquote false rest).map (front ++ ·) := by
  induction front with
  | nil => simp
  | cons c others ih =>
    simp only [List.mem_cons, not_or] at plain
    rw [List.cons_append, unquote, if_neg (Ne.symm plain.1.1), if_neg (Ne.symm plain.2.1),
      ih ⟨plain.1.2, plain.2.2⟩, Option.map_map]
    rfl

/-- A text without backslashes that is put between quotes is read back as it is laid. -/
theorem unquote_laid_escaped (isBlank : Text.allBlank blanks) {text : List Char}
    (plain : '\\' ∉ text) :
    ∃ body inside, laid depth broken blanks (escapeQuotes text ++ ['"']) = body ++ ['"'] ∧
      laid depth broken blanks (text ++ ['"']) = inside ++ ['"'] ∧
      unquote false body = some inside := by
  have gapPlain {broken : Bool} {blanks : List Char} (isBlank : Text.allBlank blanks) :
      '\\' ∉ gap depth broken blanks ∧ '"' ∉ gap depth broken blanks := by
    have zero {c : Char} (solid : Text.isBlank c = false) :=
      List.count_eq_zero.1 (count_allBlank solid (@allBlank_gap depth broken blanks isBlank))
    exact ⟨zero (by decide), zero (by decide)⟩
  induction text generalizing broken blanks with
  | nil =>
    refine ⟨gap depth broken blanks, gap depth broken blanks, laid_solid (by decide) [],
      laid_solid (by decide) [], ?_⟩
    have read := unquote_plain (@gapPlain broken blanks isBlank) []
    rw [List.append_nil] at read
    rw [read]
    simp [unquote]
  | cons c rest ih =>
    simp only [List.mem_cons, not_or] at plain
    rw [escapeQuotes_cons, List.append_assoc, List.cons_append]
    rcases Text.break_blank_solid c with rfl | ⟨notBreak, isBlank'⟩ | solid
    · exact ih rfl plain.2
    · have noQuote : c ≠ '"' := by
        rintro rfl
        cases isBlank'
      rw [if_neg noQuote, List.singleton_append, laid_blank notBreak isBlank',
        laid_blank notBreak isBlank']
      exact ih (Text.allBlank_concat.2 ⟨isBlank, isBlank'⟩) plain.2
    · obtain ⟨body, inside, eq, eq', read⟩ := @ih false [] rfl plain.2
      have front := @gapPlain broken blanks isBlank
      refine ⟨gap depth broken blanks ++ ((if c = '"' then ['\\', '"'] else [c]) ++ body),
        gap depth broken blanks ++ c :: inside, ?_, ?_, ?_⟩
      · split
        · rename_i quote
          rw [List.cons_append, laid_solid (by decide), List.singleton_append,
            laid_solid (by decide), eq]
          simp [gap]
        · rw [List.singleton_append, laid_solid solid, eq]
          simp
      · rw [laid_solid solid, eq', List.append_assoc, List.cons_append]
      · rw [unquote_plain front]
        split
        · rename_i quote
          subst quote
          simp [unquote, read]
        · rename_i noQuote
          simp [unquote, read, noQuote, Ne.symm plain.1]

theorem exists_laid_break (front more : List Char) :
    ∃ before, laid depth broken blanks (front ++ '\n' :: more) =
      before ++ laid depth true [] more := by
  induction front generalizing broken blanks with
  | nil => exact ⟨[], laid_break more⟩
  | cons c rest ih =>
    rw [List.cons_append]
    rcases Text.break_blank_solid c with rfl | ⟨notBreak, isBlank⟩ | solid
    · rw [laid_break]
      exact ih
    · rw [laid_blank notBreak isBlank]
      exact ih
    · obtain ⟨before, eq⟩ := @ih false []
      exact ⟨gap depth broken blanks ++ c :: before, by rw [laid_solid solid, eq]; simp⟩

theorem exists_last_line {text : List Char} (broken : '\n' ∈ text) :
    ∃ front line, text = front ++ '\n' :: line ∧ '\n' ∉ line := by
  obtain ⟨line, front, eq, oneLine⟩ := List.eq_append_cons_of_mem (List.mem_reverse.2 broken)
  refine ⟨front.reverse, line.reverse, ?_, by simpa using oneLine⟩
  rw [← List.reverse_reverse text, eq]
  simp

theorem last_line_unique {front front' line line' : List Char} (oneLine : '\n' ∉ line)
    (oneLine' : '\n' ∉ line') (same : front ++ '\n' :: line = front' ++ '\n' :: line') :
    line = line' := by
  have shorter {line line' more : List Char} (oneLine : '\n' ∉ line)
      (eq : '\n' :: line = more ++ '\n' :: line') : line = line' := by
    cases more with
    | nil => exact (List.cons.inj eq).2
    | cons c more => exact absurd (by simp [(List.cons.inj eq).2]) oneLine
  rcases List.append_eq_append_iff.1 same with ⟨more, -, eq⟩ | ⟨more, -, eq⟩
  · exact shorter oneLine eq
  · exact (shorter oneLine' eq).symm

/-- A text that does not end in a blank and is indented is laid as it is exactly if it is one line:
the last of several lines is longer than before. -/
theorem laid_eq_self_iff {front : List Char} {c : Char} (solid : Text.isBlank c = false)
    (indented : 0 < depth) :
    laid depth false [] (front ++ [c]) = front ++ [c] ↔ '\n' ∉ front := by
  constructor
  · intro same mem
    obtain ⟨before, line, rfl, oneLine⟩ := exists_last_line mem
    obtain ⟨before', eq⟩ := @exists_laid_break depth false [] before (line ++ [c])
    rw [List.append_assoc, List.cons_append, eq, laid_line solid oneLine, gap, if_pos rfl,
      List.append_nil, List.cons_append] at same
    have notBreak : '\n' ≠ c := by
      rintro rfl
      cases solid
    have longer := congrArg List.length (last_line_unique (by simp [oneLine, notBreak])
      (by simp [oneLine, notBreak]) same)
    simp only [List.length_append, List.length_replicate] at longer
    omega
  · exact fun oneLine => laid_oneLine solid oneLine

end Laid

end ScriptHost
