import ScriptHost.Proofs.Assembly.Stripping
import ScriptHost.Proofs.Script.Lexemes
/-!
# How texts are laid out

A configured text is written line by line: lines of blanks are left out, the others are indented
and lose the blanks at their ends. Tidying a source does the same without indentation. `laid`
tells it character by character, by what becomes of the blanks before a character that is none:
they are left as they are on a line, and what is left of a line break is the break, the
indentation and the blanks that the line starts with. So what is written for a text is written
for its parts, wherever it is cut behind such a character.

**Results.**
* `source_kept`, `tidy_eq_laid`: the lines of a text and a tidied text as laid texts.
* `laid_append`, `laid_oneLine`: laid texts piece by piece.
* `tidy_source_kept`: tidying leaves lines that were laid as they are.
* `unquote_laid`: a quoted text stays one when it is laid.
-/
namespace ScriptHost

/-! ## One character after the other -/

/-- What is written for blanks before another character, `broken` if there is a line break among
them, and then `blanks` are those behind the last. -/
def gap (depth : Nat) (broken : Bool) (blanks : List Char) : List Char :=
  if broken then '\n' :: (List.replicate (4 * depth) ' ' ++ blanks) else blanks

/-- What is written for a text, at the end of which blanks are dropped; the arguments before it
are the blanks that stand in front of it. -/
def laid (depth : Nat) : Bool → List Char → List Char → List Char
  | _, _, [] => []
  | broken, blanks, c :: rest =>
    if c = '\n' then laid depth true [] rest
    else if Text.isBlank c then laid depth broken (blanks ++ [c]) rest
    else gap depth broken blanks ++ c :: laid depth false [] rest

section Laid

variable {depth : Nat} {broken : Bool} {blanks : List Char}

@[simp] theorem laid_nil : laid depth broken blanks [] = [] := rfl

theorem laid_break (rest : List Char) :
    laid depth broken blanks ('\n' :: rest) = laid depth true [] rest := rfl

theorem laid_blank {c : Char} (notBreak : c ≠ '\n') (isBlank : Text.isBlank c) (rest : List Char) :
    laid depth broken blanks (c :: rest) = laid depth broken (blanks ++ [c]) rest := by
  rw [laid, if_neg notBreak, if_pos isBlank]

theorem laid_solid {c : Char} (solid : Text.isBlank c = false) (rest : List Char) :
    laid depth broken blanks (c :: rest) =
      gap depth broken blanks ++ c :: laid depth false [] rest := by
  have notBreak : c ≠ '\n' := by
    rintro rfl
    cases solid
  rw [laid, if_neg notBreak, if_neg (by simp [solid])]

/-- A character is a line break, another blank or none. -/
theorem Text.break_blank_solid (c : Char) :
    c = '\n' ∨ (c ≠ '\n' ∧ isBlank c = true) ∨ isBlank c = false := by
  by_cases isBreak : c = '\n'
  · exact .inl isBreak
  · cases isBlank c <;> simp [isBreak]

/-- Blanks of a line are kept until a character that is none. -/
theorem laid_inline {more : List Char} (isBlank : Text.allBlank more) (oneLine : '\n' ∉ more)
    (text : List Char) :
    laid depth broken blanks (more ++ text) = laid depth broken (blanks ++ more) text := by
  induction more generalizing blanks with
  | nil => rw [List.nil_append, List.append_nil]
  | cons c rest ih =>
    simp only [List.mem_cons, not_or] at oneLine
    obtain ⟨first, isBlank⟩ := Text.allBlank_cons.1 isBlank
    rw [List.cons_append, laid_blank (Ne.symm oneLine.1) first, ih isBlank oneLine.2,
      ← List.append_cons]

theorem allBlank_gap (isBlank : Text.allBlank blanks) :
    Text.allBlank (gap depth broken blanks) := by
  unfold gap
  split
  · exact Text.allBlank_cons.2 ⟨by decide,
      Text.allBlank_append.2 ⟨SourceLine.allBlank_indent _, isBlank⟩⟩
  · exact isBlank

theorem allBlank_gap_break (isBlank : Text.allBlank blanks) :
    Text.allBlank (gap depth broken blanks ++ ['\n']) :=
  Text.allBlank_concat.2 ⟨allBlank_gap isBlank, by decide⟩

theorem gap_concat (c : Char) :
    gap depth broken (blanks ++ [c]) = gap depth broken blanks ++ [c] := by
  unfold gap
  split <;> simp

/-! ## Pieces -/

/-- Behind a character that is no blank a text is laid by itself. -/
theorem laid_append {c : Char} (solid : Text.isBlank c = false) (front more : List Char) :
    laid depth broken blanks (front ++ c :: more) =
      laid depth broken blanks (front ++ [c]) ++ laid depth false [] more := by
  induction front generalizing broken blanks with
  | nil => simp [laid_solid solid]
  | cons d rest ih =>
    rw [List.cons_append, List.cons_append]
    rcases Text.break_blank_solid d with rfl | ⟨notBreak, isBlank⟩ | solid'
    · rw [laid_break, laid_break, ih]
    · rw [laid_blank notBreak isBlank, laid_blank notBreak isBlank, ih]
    · rw [laid_solid solid', laid_solid solid', ih]
      simp

theorem laid_line {c : Char} (solid : Text.isBlank c = false) {front : List Char}
    (oneLine : '\n' ∉ front) :
    laid depth broken blanks (front ++ [c]) = gap depth broken blanks ++ (front ++ [c]) := by
  induction front generalizing broken blanks with
  | nil => rw [List.nil_append, laid_solid solid, laid_nil]
  | cons d rest ih =>
    simp only [List.mem_cons, not_or] at oneLine
    rw [List.cons_append]
    rcases Text.break_blank_solid d with rfl | ⟨notBreak, isBlank⟩ | solid'
    · exact absurd rfl oneLine.1
    · rw [laid_blank notBreak isBlank, ih oneLine.2, gap_concat, List.append_assoc]
      rfl
    · rw [laid_solid solid', ih oneLine.2]
      rfl

theorem laid_oneLine {c : Char} (solid : Text.isBlank c = false) {front : List Char}
    (oneLine : '\n' ∉ front) :
    laid depth false blanks (front ++ [c]) = blanks ++ (front ++ [c]) :=
  laid_line solid oneLine

theorem laid_allBlank {text : List Char} (isBlank : Text.allBlank text) :
    laid depth broken blanks text = [] := by
  induction text generalizing broken blanks with
  | nil => rfl
  | cons c rest ih =>
    obtain ⟨first, rest⟩ := Text.allBlank_cons.1 isBlank
    by_cases isBreak : c = '\n'
    · rw [isBreak, laid_break, ih rest]
    · rw [laid_blank isBreak first, ih rest]

/-- Blanks before a character that is none are written as blanks. -/
theorem laid_blanks (isBlank : Text.allBlank blanks) {more : List Char} (h : Text.allBlank more)
    {c : Char} (solid : Text.isBlank c = false) (rest : List Char) :
    ∃ space, Text.allBlank space ∧
      laid depth broken blanks (more ++ c :: rest) = space ++ laid depth false [] (c :: rest) := by
  induction more generalizing broken blanks with
  | nil =>
    refine ⟨gap depth broken blanks, allBlank_gap isBlank, ?_⟩
    rw [List.nil_append, laid_solid solid, laid_solid solid]
    rfl
  | cons d others ih =>
    obtain ⟨first, others⟩ := Text.allBlank_cons.1 h
    rw [List.cons_append]
    by_cases isBreak : d = '\n'
    · rw [isBreak, laid_break]
      exact ih rfl others
    · rw [laid_blank isBreak first]
      exact ih (Text.allBlank_concat.2 ⟨isBlank, first⟩) others

/-- What is written for a text behind blanks starts with a blank, if anything is written. -/
theorem head_laid_blank (isBlank : Text.allBlank blanks) (some : broken = true ∨ blanks ≠ [])
    (text : List Char) : ∀ d ∈ (laid depth broken blanks text).head?, Text.isBlank d := by
  induction text generalizing broken blanks with
  | nil => simp
  | cons c rest ih =>
    rcases Text.break_blank_solid c with rfl | ⟨notBreak, isBlank'⟩ | solid
    · rw [laid_break]
      exact ih rfl (.inl rfl)
    · rw [laid_blank notBreak isBlank']
      exact ih (Text.allBlank_concat.2 ⟨isBlank, isBlank'⟩) (.inr (by simp))
    · have gapBlank : Text.allBlank (gap depth broken blanks) := allBlank_gap isBlank
      have gapSome : gap depth broken blanks ≠ [] := by
        unfold gap
        split
        · simp
        · rename_i unbroken
          exact some.resolve_left unbroken
      obtain ⟨first, others, eq⟩ := List.exists_cons_of_ne_nil gapSome
      rw [laid_solid solid, eq]
      intro d mem
      cases mem
      rw [eq] at gapBlank
      exact List.all_eq_true.1 gapBlank _ (.head _)

theorem head_laid (text : List Char) :
    ∀ d ∈ (laid depth false [] text).head?, text.head? = some d ∨ Text.isBlank d := by
  intro d mem
  cases text with
  | nil => cases mem
  | cons c rest =>
    rcases Text.break_blank_solid c with rfl | ⟨notBreak, isBlank⟩ | solid
    · rw [laid_break] at mem
      exact .inr (head_laid_blank rfl (.inl rfl) rest d mem)
    · rw [laid_blank notBreak isBlank] at mem
      have isBlank : Text.allBlank [c] := Text.allBlank_cons.2 ⟨isBlank, rfl⟩
      exact .inr (head_laid_blank isBlank (.inr (by simp)) rest d mem)
    · rw [laid_solid solid] at mem
      exact .inl mem

/-! ## Quoted texts -/

theorem laid_concat {c : Char} (solid : Text.isBlank c = false) (front : List Char) :
    ∃ inside, laid depth broken blanks (front ++ [c]) = inside ++ [c] := by
  induction front generalizing broken blanks with
  | nil => exact ⟨gap depth broken blanks, laid_solid solid []⟩
  | cons d rest ih =>
    rw [List.cons_append]
    rcases Text.break_blank_solid d with rfl | ⟨notBreak, isBlank⟩ | solid'
    · exact ih
    · rw [laid_blank notBreak isBlank]
      exact ih
    · obtain ⟨inside, eq⟩ := @ih false []
      exact ⟨gap depth broken blanks ++ d :: inside, by rw [laid_solid solid', eq]; simp⟩

/-- What stands between quotes still does when it is laid. -/
theorem unquote_laid (isBlank : Text.allBlank blanks) {body inside : List Char}
    (eq : laid depth broken blanks (body ++ ['"']) = inside ++ ['"']) {escaped : Bool}
    (h : (Scanner.unquote escaped (gap depth broken blanks ++ body)).isSome) :
    (Scanner.unquote escaped inside).isSome := by
  induction body generalizing broken blanks inside escaped with
  | nil =>
    rw [List.nil_append, laid_solid (by decide), laid_nil] at eq
    rwa [List.append_nil, List.append_cancel_right eq] at h
  | cons c rest ih =>
    rcases Text.break_blank_solid c with rfl | ⟨notBreak, isBlank'⟩ | solid
    · refine ih rfl eq ?_
      -- Both gaps hold the line break, so neither leaves a character escaped.
      rw [List.append_cons, Scanner.unquote_blanks (allBlank_gap_break isBlank) (by simp)] at h
      rwa [Scanner.unquote_blanks (allBlank_gap rfl) (by simp [gap])]
    · rw [List.cons_append, laid_blank notBreak isBlank'] at eq
      refine ih (Text.allBlank_concat.2 ⟨isBlank, isBlank'⟩) eq ?_
      rwa [gap_concat, ← List.append_cons]
    · obtain ⟨inside', eq'⟩ := @laid_concat depth false [] '"' (by decide) rest
      rw [List.cons_append, laid_solid solid, eq', ← List.cons_append, ← List.append_assoc] at eq
      rw [← List.append_cancel_right eq, List.append_cons]
      rw [List.append_cons] at h
      exact Scanner.unquote_append h fun _ h => ih rfl eq' h

theorem quoting_laid (isBlank : Text.allBlank blanks) (text : List Char) (start : Option Bool) :
    Scanner.quoting start (laid depth broken blanks text ++ ['\n']) = none ↔
      Scanner.quoting start (gap depth broken blanks ++ text) = none := by
  induction text generalizing broken blanks start with
  | nil =>
    rw [laid_nil, List.nil_append, List.append_nil, Scanner.quoting_blanks rfl (by simp)]
    by_cases none : gap depth broken blanks = []
    · rw [none, Scanner.quoting_nil, Option.map_eq_none_iff]
    · rw [Scanner.quoting_blanks (allBlank_gap isBlank) none]
  | cons c rest ih =>
    rcases Text.break_blank_solid c with rfl | ⟨notBreak, isBlank'⟩ | solid
    · have before := Scanner.quoting_blanks (@allBlank_gap_break depth broken blanks isBlank)
        (by simp) start
      have behind := Scanner.quoting_blanks (@allBlank_gap depth true [] rfl) (by simp [gap]) start
      rw [laid_break, ih rfl, Scanner.quoting_append, behind, List.append_cons,
        Scanner.quoting_append, before]
    · rw [laid_blank notBreak isBlank', ih (Text.allBlank_concat.2 ⟨isBlank, isBlank'⟩), gap_concat,
        ← List.append_cons]
    · have behind (text : List Char) :
          Scanner.quoting start (gap depth broken blanks ++ c :: text) =
          Scanner.quoting (Scanner.quoting start (gap depth broken blanks ++ [c])) text := by
        rw [List.append_cons, Scanner.quoting_append]
      rw [laid_solid solid, List.append_assoc, List.cons_append, behind, behind rest]
      exact @ih false [] rfl _

end Laid

/-! ## Lines -/

open Comments

section Lines

variable {depth : Nat} {blanks : List Char}

theorem source_append (lines lines' : List SourceLine) :
    SourceLine.source (lines ++ lines') = SourceLine.source lines ++ SourceLine.source lines' :=
  List.flatMap_append

theorem source_tidyLine (isBlank : Text.allBlank blanks) (front : List Char) {c : Char}
    (solid : Text.isBlank c = false) :
    SourceLine.source
        ((tidyLine (front ++ c :: blanks)).map fun line => ⟨depth, String.ofList line⟩) =
      List.replicate (4 * depth) ' ' ++ (front ++ [c]) ++ ['\n'] := by
  have notBlank : ¬ Text.allBlank (front ++ c :: blanks) := by
    simp [Text.allBlank, solid]
  have trimmed : Text.trimEnd (front ++ c :: blanks) = front ++ [c] := by
    rw [List.append_cons, Text.trimEnd_append_blanks _ isBlank, Text.trimEnd_append solid]
  rw [tidyLine, if_neg notBlank, trimmed]
  simp [SourceLine.source, SourceLine.toList_written, SourceLine.chars]

theorem source_blankLine (isBlank : Text.allBlank blanks) :
    SourceLine.source ((tidyLine blanks).map fun line => ⟨depth, String.ofList line⟩) = [] := by
  rw [tidyLine, if_pos isBlank]
  rfl

theorem kept_line {line : List Char} (oneLine : '\n' ∉ line) (more : List Char) :
    SourceLine.source (kept depth (line ++ '\n' :: more)) =
      SourceLine.source ((tidyLine line).map fun line => ⟨depth, String.ofList line⟩) ++
        SourceLine.source (kept depth more) := by
  rw [kept, tidyLines_line oneLine, List.map_append, source_append]
  rfl

theorem kept_last {line : List Char} (oneLine : '\n' ∉ line) :
    SourceLine.source (kept depth line) =
      SourceLine.source ((tidyLine line).map fun line => ⟨depth, String.ofList line⟩) := by
  rw [kept, tidyLines_last oneLine]

/-- What is generated for a text from where a line starts, and from behind a character of one; in
front stand blanks of the same line. -/
theorem laid_lines (isBlank : Text.allBlank blanks) (oneLine : '\n' ∉ blanks) (text : List Char) :
    laid depth true blanks text ++ ['\n'] =
        '\n' :: SourceLine.source (kept depth (blanks ++ text)) ∧
      ∀ front c, '\n' ∉ front → Text.isBlank c = false →
        SourceLine.source (kept depth (front ++ c :: (blanks ++ text))) =
          List.replicate (4 * depth) ' ' ++ (front ++ [c]) ++
            (laid depth false blanks text ++ ['\n']) := by
  have line {front : List Char} {c : Char} {blanks : List Char} (before : '\n' ∉ front)
      (solid : Text.isBlank c = false) (oneLine : '\n' ∉ blanks) : '\n' ∉ front ++ c :: blanks := by
    have notBreak : '\n' ≠ c := by
      rintro rfl
      cases solid
    simp [before, notBreak, oneLine]
  induction text generalizing blanks with
  | nil =>
    refine ⟨?_, fun front c before solid => ?_⟩
    · rw [List.append_nil, kept_last oneLine, source_blankLine isBlank]
      rfl
    · rw [List.append_nil, kept_last (line before solid oneLine),
        source_tidyLine isBlank front solid]
      rfl
  | cons d rest ih =>
    rcases Text.break_blank_solid d with rfl | ⟨notBreak, isBlank'⟩ | solid'
    · have next := (@ih [] rfl (by simp)).1
      refine ⟨?_, fun front c before solid => ?_⟩
      · rw [laid_break, next, kept_line oneLine, source_blankLine isBlank]
        rfl
      · have eq : front ++ c :: (blanks ++ '\n' :: rest) =
            (front ++ c :: blanks) ++ '\n' :: rest := by
          simp
        rw [laid_break, next, eq, kept_line (line before solid oneLine),
          source_tidyLine isBlank front solid]
        simp
    · have eq : blanks ++ d :: rest = (blanks ++ [d]) ++ rest := by simp
      rw [laid_blank notBreak isBlank', laid_blank notBreak isBlank', eq]
      refine ih (Text.allBlank_concat.2 ⟨isBlank, isBlank'⟩) ?_
      simp [oneLine, notBreak.symm]
    · have behind := (@ih [] rfl (by simp)).2
      refine ⟨?_, fun front c before solid => ?_⟩
      · have next := behind blanks d oneLine solid'
        rw [List.nil_append] at next
        rw [laid_solid solid', next]
        simp [gap]
      · have next := behind (front ++ c :: blanks) d (line before solid oneLine) solid'
        rw [List.nil_append] at next
        have eq : front ++ c :: (blanks ++ d :: rest) = (front ++ c :: blanks) ++ d :: rest := by
          simp
        rw [laid_solid solid', eq, next]
        simp [gap]

/-- The lines that are generated for a text are the text as it is laid. -/
theorem source_kept (depth : Nat) (text : List Char) :
    '\n' :: SourceLine.source (kept depth text) = laid depth true [] text ++ ['\n'] :=
  (@laid_lines depth [] rfl (by simp) text).1.symm

theorem tidy_eq_laid (text : List Char) : '\n' :: tidy text = laid 0 true [] text ++ ['\n'] := by
  have same : tidy text = SourceLine.source (kept 0 text) := by
    simp [tidy, SourceLine.source, kept, List.flatMap_map, SourceLine.toList_written,
      SourceLine.chars]
  rw [same, source_kept]

/-- Laying leaves what was laid as it is, if it starts a line or stands behind a character of
one. -/
theorem laid_laid {broken broken' : Bool} {blanks blanks' : List Char}
    (isBlank : Text.allBlank blanks') (oneLine : '\n' ∉ blanks')
    (start : broken' = true ∨ broken = false ∧ blanks = []) (text more : List Char) :
    laid 0 broken blanks (laid depth broken' blanks' text ++ '\n' :: more) =
      laid depth broken' blanks' text ++ laid 0 true [] more := by
  induction text generalizing broken broken' blanks blanks' with
  | nil => rfl
  | cons c rest ih =>
    rcases Text.break_blank_solid c with rfl | ⟨notBreak, isBlank'⟩ | solid
    · rw [laid_break]
      exact ih rfl (by simp) (.inl rfl)
    · rw [laid_blank notBreak isBlank']
      refine ih (Text.allBlank_concat.2 ⟨isBlank, isBlank'⟩) ?_ start
      simp [oneLine, notBreak.symm]
    · have next := @ih false false [] [] rfl (by simp) (.inr ⟨rfl, rfl⟩)
      rw [laid_solid solid, List.append_assoc, List.append_assoc, List.cons_append,
        List.cons_append]
      cases broken' with
      | true =>
        have front : Text.allBlank (List.replicate (4 * depth) ' ' ++ blanks') :=
          Text.allBlank_append.2 ⟨SourceLine.allBlank_indent _, isBlank⟩
        have frontLine : '\n' ∉ List.replicate (4 * depth) ' ' ++ blanks' := by
          simp [oneLine]
        rw [gap, if_pos rfl, List.cons_append, laid_break, laid_inline front frontLine,
          laid_solid solid, next]
        simp [gap]
      | false =>
        obtain ⟨rfl, rfl⟩ := start.resolve_left (by simp)
        rw [gap, if_neg (by simp), laid_inline isBlank oneLine, laid_solid solid, next]
        simp [gap]

theorem tidy_source_kept (depth : Nat) (text more : List Char) :
    tidy (SourceLine.source (kept depth text) ++ more) =
      SourceLine.source (kept depth text) ++ tidy more := by
  refine List.cons_injective (a := '\n') ?_
  have start : laid 0 true [] (SourceLine.source (kept depth text) ++ more) =
      laid 0 true [] ('\n' :: SourceLine.source (kept depth text) ++ more) := rfl
  show '\n' :: tidy _ = _
  rw [tidy_eq_laid, start, source_kept, List.append_assoc, List.singleton_append,
    laid_laid rfl (by simp) (.inl rfl), List.append_assoc, ← tidy_eq_laid, ← List.singleton_append,
    ← List.append_assoc, ← source_kept]
  rfl

theorem closes_tidy (text : List Char) : Scanner.Closes (tidy text) ↔ Scanner.Closes text := by
  have same := @quoting_laid 0 true [] rfl text none
  rw [← tidy_eq_laid] at same
  exact same

end Lines

end ScriptHost
