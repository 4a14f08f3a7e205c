import Mathlib.Data.List.Infix
import ScriptHost.Proofs.Assembly.Opening
/-!
# What stripping keeps

Comments are taken out of a whole source, but they can be told line by line: `Comments.after` is
where a character stands behind a text, and all that a line hands on to the next is whether it
ends inside a block comment. Blank lines and the blanks at either end of a line are no part of any
token. So the lines of a text, indented and trimmed, keep the tokens that the text has without its
comments, and add nothing to those around them.

**Results.**
* `Comments.erase_append`, `Comments.erase_line`: comments are told piece by piece.
* `Comments.scans_tidy_line`: tidying a line keeps its tokens.
* `Comments.adds_kept`: what the lines of a text add to a source that they are generated into.
-/
namespace ScriptHost

open Scanner

namespace Comments

/-! ## Where a text ends -/

def after : Mode → List Char → Mode
  | mode, [] => mode
  | .code, '/' :: '/' :: rest => after .line rest
  | .code, '/' :: '*' :: rest => after (.block false) rest
  | .code, c :: rest => after (if c = '"' then .quoted false else .code) rest
  | .quoted escaped, c :: rest => after (insideQuotes escaped c) rest
  | .line, '\n' :: rest => after .code rest
  | .line, _ :: rest => after .line rest
  | .block closing, c :: rest => after (insideBlock closing c) rest

/-- The quotes that are open in a place. -/
def Mode.quotes : Mode → Option Bool
  | .quoted escaped => some escaped
  | _ => none

/-- Where the first character of the next line stands. -/
def Mode.nextLine : Mode → Mode
  | .quoted _ => .quoted false
  | .block _ => .block false
  | _ => .code

/-- Whether two texts side by side are not read as the start of a comment. -/
def Apart (front more : List Char) : Prop :=
  front.getLast? = some '/' → more.head? ≠ some '/' ∧ more.head? ≠ some '*'

theorem Apart.tail {c : Char} {front more : List Char} (h : Apart (c :: front) more) :
    Apart front more := by
  intro slash
  refine h ?_
  rw [List.getLast?_cons, slash]
  rfl

section Code

variable {c : Char} {rest : List Char} (noLine : ∀ others, c = '/' → rest = '/' :: others → False)
  (noBlock : ∀ others, c = '/' → rest = '*' :: others → False)

include noLine noBlock

theorem erase_code : erase .code (c :: rest) =
    c :: erase (if c = '"' then .quoted false else .code) rest := by
  rw [erase]
  · exact noLine
  · exact noBlock

theorem after_code : after .code (c :: rest) =
    after (if c = '"' then .quoted false else .code) rest := by
  rw [after]
  · exact noLine
  · exact noBlock

end Code

/-- Two texts are told one after the other: the second from where the first ends. -/
structure Told (mode : Mode) (front more : List Char) : Prop where
  erased : erase mode (front ++ more) = erase mode front ++ erase (after mode front) more
  place : after mode (front ++ more) = after (after mode front) more

theorem erase_append {mode : Mode} {front more : List Char} (apart : Apart front more) :
    Told mode front more := by
  suffices both : erase mode (front ++ more) = erase mode front ++ erase (after mode front) more ∧
      after mode (front ++ more) = after (after mode front) more from ⟨both.1, both.2⟩
  fun_induction erase mode front with
  | case1 mode => simp [after]
  | case2 rest ih => simpa [erase, after] using ih apart.tail.tail
  | case3 rest ih => simpa [erase, after] using ih apart.tail.tail
  | case4 c rest noLine noBlock ih =>
    have noLine' : ∀ others, c = '/' → rest ++ more = '/' :: others → False := by
      rintro others rfl eq
      cases rest with
      | nil => exact (apart rfl).1 (by simp_all)
      | cons d front => exact noLine front rfl (by simp_all)
    have noBlock' : ∀ others, c = '/' → rest ++ more = '*' :: others → False := by
      rintro others rfl eq
      cases rest with
      | nil => exact (apart rfl).2 (by simp_all)
      | cons d front => exact noBlock front rfl (by simp_all)
    rw [List.cons_append, erase_code noLine' noBlock', after_code noLine' noBlock',
      after_code noLine noBlock, (ih apart.tail).1, (ih apart.tail).2]
    exact ⟨rfl, rfl⟩
  | case5 escaped c rest ih | case6 rest ih => simp [erase, after, ih apart.tail]
  | case8 closing rest ih => simp [erase, after, insideBlock, ih apart.tail]
  | case7 c rest other ih | case9 closing c rest other ih =>
    simp [erase, after, other, ih apart.tail]

theorem erase_break (mode : Mode) (more : List Char) :
    erase mode ('\n' :: more) = '\n' :: erase mode.nextLine more ∧
      after mode ('\n' :: more) = after mode.nextLine more := by
  cases mode with
  | code => simp [erase, after, Mode.nextLine]
  | quoted escaped => cases escaped <;> simp [erase, after, insideQuotes, Mode.nextLine]
  | line => simp [erase, after, Mode.nextLine]
  | block closing => simp [erase, after, insideBlock, Mode.nextLine]

/-- A line feed ends what is told of a line. -/
theorem erase_line (mode : Mode) (line more : List Char) :
    erase mode (line ++ '\n' :: more) =
        erase mode line ++ '\n' :: erase (after mode line).nextLine more ∧
      after mode (line ++ '\n' :: more) = after (after mode line).nextLine more := by
  have apart : Apart line ('\n' :: more) := fun _ => by simp
  rw [(erase_append apart).erased, (erase_append apart).place, (erase_break _ more).1,
    (erase_break _ more).2]
  exact ⟨rfl, rfl⟩

theorem erase_sublist (mode : Mode) (text : List Char) : (erase mode text).Sublist text := by
  fun_induction erase mode text with
  | case1 => exact .slnil
  | case2 rest ih | case3 rest ih => exact (ih.cons _).cons _
  | case4 c rest _ _ ih | case5 _ c rest ih => exact ih.cons_cons c
  | case6 rest ih | case8 _ rest ih => exact ih.cons_cons _
  | case7 c rest _ ih | case9 _ c rest _ ih => exact ih.cons c

theorem not_mem_erase {mode : Mode} {text : List Char} {c : Char} (h : c ∉ text) :
    c ∉ erase mode text := fun mem => h ((erase_sublist mode text).subset mem)

/-- The scanner sees the quotes that are open behind a text as they are told here. -/
theorem quoting_erase (mode : Mode) (text : List Char) :
    Scanner.quoting mode.quotes (erase mode text) = (after mode text).quotes := by
  fun_induction erase mode text with
  | case1 => rfl
  | case2 rest ih | case3 rest ih => simpa [after, Mode.quotes] using ih
  | case4 c rest noLine noBlock ih =>
    rw [after_code noLine noBlock, ← ih]
    simp only [Mode.quotes, Scanner.quoting_cons, Scanner.quoteStep]
    split <;> rfl
  | case5 escaped c rest ih =>
    rw [after, ← ih]
    cases escaped with
    | true => rfl
    | false =>
      simp only [Mode.quotes, Scanner.quoting_cons, Scanner.quoteStep, insideQuotes]
      split
      · rfl
      · split <;> rfl
  | case6 rest ih => simpa [after, Mode.quotes, Scanner.quoteStep] using ih
  | case7 c rest other ih => simpa [after, other, Mode.quotes] using ih
  | case8 closing rest ih => simpa [after, insideBlock, Mode.quotes, Scanner.quoteStep] using ih
  | case9 closing c rest other ih =>
    rw [after, ← ih]
    unfold insideBlock
    split <;> rfl

theorem closes_erase {mode : Mode} {text : List Char} (start : mode.quotes = none)
    (ends : (after mode text).quotes = none) : Scanner.Closes (erase mode text) := by
  have := quoting_erase mode text
  rwa [start, ends] at this

/-! ## Blanks -/

/-- No blank has a meaning for comments. -/
theorem not_isBlank_sign {c : Char} (h : Text.isBlank c) :
    c ≠ '/' ∧ c ≠ '*' ∧ c ≠ '"' := by
  have : (c == '/' || c == '*' || c == '"') = false :=
    Text.of_isBlank (p := fun c => c == '/' || c == '*' || c == '"') (by decide) h
  simpa [and_assoc] using this

theorem apart_blanks (front : List Char) {blanks : List Char} (h : Text.allBlank blanks) :
    Apart front blanks := by
  intro _
  cases blanks with
  | nil => simp
  | cons c rest =>
    obtain ⟨noSlash, noStar, -⟩ := not_isBlank_sign (Text.allBlank_cons.1 h).1
    simp [noSlash, noStar]

/-- Blanks do not change where the next line starts. -/
theorem after_blanks (mode : Mode) {blanks : List Char} (isBlank : Text.allBlank blanks) :
    (after mode blanks).nextLine = mode.nextLine := by
  induction blanks generalizing mode with
  | nil => simp [after]
  | cons c rest ih =>
    obtain ⟨isBlank, restBlank⟩ := Text.allBlank_cons.1 isBlank
    obtain ⟨noSlash, -, noQuote⟩ := not_isBlank_sign isBlank
    cases mode with
    | code => simp [after, noSlash, noQuote, ih _ restBlank]
    | quoted escaped =>
      rw [after, ih _ restBlank, insideQuotes, if_neg noQuote]
      split
      · rfl
      · split <;> rfl
    | line =>
      by_cases ends : c = '\n'
      · rw [ends, after, ih _ restBlank]
        rfl
      · rw [after, ih _ restBlank]
        exact ends
    | block closing =>
      rw [after, ih _ restBlank]
      simp [insideBlock, noSlash, Mode.nextLine]

theorem allBlank_erase (mode : Mode) {blanks : List Char} (isBlank : Text.allBlank blanks) :
    Text.allBlank (erase mode blanks) := by
  refine List.all_eq_true.2 fun c mem => ?_
  exact List.all_eq_true.1 isBlank c ((erase_sublist mode blanks).subset mem)

theorem Mode.quotes_nextLine {mode : Mode} : mode.nextLine.quotes = none ↔ mode.quotes = none := by
  cases mode <;> simp [nextLine, quotes]

end Comments

/-! ## Tidy lines -/

namespace Text

/-- Trimming a line takes blanks from its end. -/
theorem exists_trimEnd (line : List Char) :
    ∃ blanks, allBlank blanks ∧ line = trimEnd line ++ blanks := by
  induction line with
  | nil => exact ⟨[], rfl, rfl⟩
  | cons c rest ih =>
    obtain ⟨blanks, isBlank, eq⟩ := ih
    rw [trimEnd]
    split
    · rename_i none
      rw [none, List.nil_append] at eq
      subst eq
      split
      · rename_i first
        exact ⟨c :: rest, by simpa [allBlank, first] using isBlank, rfl⟩
      · exact ⟨rest, isBlank, rfl⟩
    · rename_i d kept some
      rw [some] at eq
      exact ⟨blanks, isBlank, by rw [eq, List.cons_append, List.cons_append, List.cons_append]⟩

theorem trimEnd_append_blanks (line : List Char) {blanks : List Char} (isBlank : allBlank blanks) :
    trimEnd (line ++ blanks) = trimEnd line := by
  induction line with
  | nil => exact trimEnd_eq_nil_iff.2 (List.all_eq_true.1 isBlank)
  | cons c rest ih => rw [List.cons_append, trimEnd, ih, trimEnd]

/-- Of a line that ended in a line feed at most a blank is gone. -/
theorem exists_closeLine (line : List Char) :
    ∃ blanks, allBlank blanks ∧ line = closeLine line ++ blanks := by
  unfold closeLine
  split
  · rename_i ends
    refine ⟨['\r'], by decide, ?_⟩
    obtain ⟨front, rfl⟩ := List.getLast?_eq_some_iff.1 ends
    rw [List.dropLast_concat]
  · exact ⟨[], rfl, (List.append_nil _).symm⟩

theorem trimEnd_closeLine (line : List Char) : trimEnd (closeLine line) = trimEnd line := by
  obtain ⟨blanks, isBlank, eq⟩ := exists_closeLine line
  conv => rhs; rw [eq]
  exact (trimEnd_append_blanks _ isBlank).symm

theorem allBlank_closeLine (line : List Char) : allBlank (closeLine line) = allBlank line := by
  obtain ⟨blanks, isBlank, eq⟩ := exists_closeLine line
  have all : allBlank (closeLine line ++ blanks) = allBlank (closeLine line) := by
    unfold allBlank at *
    rw [List.all_append, isBlank, Bool.and_true]
  rw [← all, ← eq]

theorem lines_last {line : List Char} (some : line ≠ []) (oneLine : '\n' ∉ line) :
    lines line = [line] := by
  have plain : ∀ c ∈ line, (c != '\n') = true := by
    intro c mem
    simp only [bne_iff_ne, ne_eq]
    rintro rfl
    exact oneLine mem
  obtain ⟨first, others, rfl⟩ := List.exists_cons_of_ne_nil some
  rw [lines]
  split
  · rw [List.takeWhile_eq_self_iff.2 plain]
  · rename_i rest eq
    rw [List.dropWhile_eq_nil_iff.2 plain] at eq
    cases eq

end Text

namespace Comments

/-- What is left of one line. -/
def tidyLine (line : List Char) : List (List Char) :=
  if Text.allBlank line then [] else [Text.trimEnd line]

theorem tidyLines_line {line : List Char} (oneLine : '\n' ∉ line) (more : List Char) :
    tidyLines (line ++ '\n' :: more) = tidyLine line ++ tidyLines more := by
  unfold tidyLines tidyLine
  rw [Text.lines_cons oneLine, List.filter_cons, Text.allBlank_closeLine]
  by_cases isBlank : Text.allBlank line <;> simp [isBlank, Text.trimEnd_closeLine]

theorem tidyLines_last {line : List Char} (oneLine : '\n' ∉ line) :
    tidyLines line = tidyLine line := by
  unfold tidyLines tidyLine
  cases line with
  | nil => simp [Text.lines, Text.allBlank]
  | cons c rest =>
    rw [Text.lines_last (by simp) oneLine, List.filter_cons]
    by_cases isBlank : Text.allBlank (c :: rest) <;> simp [isBlank]

/-- A text without its blank lines and the blanks at the ends of lines. -/
def tidy (text : List Char) : List Char := (tidyLines text).flatMap (· ++ ['\n'])

@[simp] theorem tidy_nil : tidy [] = [] := by simp [tidy, tidyLines, Text.lines]

theorem closes_trimEnd {line : List Char} (closes : Closes line) : Closes (Text.trimEnd line) := by
  obtain ⟨blanks, isBlank, eq⟩ := Text.exists_trimEnd line
  rw [eq] at closes
  exact closes.of_append_blanks isBlank

theorem scans_trimEnd {line : List Char} (closes : Closes line) {kinds : List TokenKind} :
    Scans (Text.trimEnd line) kinds ↔ Scans line kinds := by
  obtain ⟨blanks, isBlank, eq⟩ := Text.exists_trimEnd line
  rw [← scans_append_blanks (closes_trimEnd closes) isBlank, ← eq]

/-- The tokens of a line that closes its quotes and of what follows it. -/
theorem scans_tidy_line {line : List Char} (oneLine : '\n' ∉ line) (closes : Closes line)
    {more : List Char} {kinds : List TokenKind} :
    Scans (tidy (line ++ '\n' :: more)) kinds ↔
      ∃ front others, kinds = front ++ others ∧ Scans line front ∧ Scans (tidy more) others := by
  rw [tidy, tidyLines_line oneLine, tidyLine]
  split
  · rename_i isBlank
    constructor
    · intro scans
      exact ⟨[], kinds, rfl, .done isBlank, scans⟩
    · rintro ⟨front, others, rfl, none, scans⟩
      rw [none.of_allBlank isBlank]
      exact scans
  · rw [List.flatMap_append, List.flatMap_singleton, List.append_assoc, List.singleton_append,
      scans_blank_iff (closes_trimEnd closes) (by decide)]
    simp only [scans_trimEnd closes, tidy]

theorem closes_of_tidy_last {line : List Char} (oneLine : '\n' ∉ line) {kinds : List TokenKind}
    (scans : Scans (tidy line) kinds) : Closes line := by
  rw [tidy, tidyLines_last oneLine, tidyLine] at scans
  split at scans
  · rename_i isBlank
    exact closes_of_blank isBlank
  · rw [List.flatMap_singleton] at scans
    obtain ⟨blanks, isBlank, eq⟩ := Text.exists_trimEnd line
    rw [eq]
    exact (scans.closes.of_append_blanks (by decide)).append (closes_of_blank isBlank)

theorem scans_tidy_last {line : List Char} (oneLine : '\n' ∉ line) (closes : Closes line)
    {kinds : List TokenKind} : Scans (tidy line) kinds ↔ Scans line kinds := by
  rw [tidy, tidyLines_last oneLine, tidyLine]
  split
  · rename_i isBlank
    constructor
    · intro none
      rw [none.of_allBlank rfl]
      exact .done isBlank
    · intro none
      rw [none.of_allBlank isBlank]
      exact .done rfl
  · rw [List.flatMap_singleton, scans_append_blanks (closes_trimEnd closes) (by decide),
      scans_trimEnd closes]

end Comments

theorem stripComments_eq (source : String) :
    stripComments source = String.ofList (Comments.tidy (Comments.erase .code source.toList)) := rfl

/-! ## Generated lines -/

namespace SourceLine

def source (lines : List SourceLine) : List Char := lines.flatMap fun line => line.written.toList

/-- What a line is, apart from the line feed that ends it. -/
def chars (line : SourceLine) : List Char :=
  List.replicate (4 * line.depth) ' ' ++ line.text.toList

theorem toList_indent (depth : Nat) :
    (String.join (List.replicate depth "    ")).toList = List.replicate (4 * depth) ' ' := by
  induction depth with
  | zero => rfl
  | succ depth ih =>
    rw [List.replicate_succ, String.join_cons, String.toList_append, ih]
    show List.replicate 4 ' ' ++ _ = _
    rw [List.replicate_append_replicate, Nat.mul_succ, Nat.add_comm]

theorem toList_written (line : SourceLine) : line.written.toList = line.chars ++ ['\n'] := by
  rw [written, String.toList_append, String.toList_append, toList_indent]
  rfl

theorem allBlank_indent (depth : Nat) : Text.allBlank (List.replicate depth ' ') := by
  refine List.all_eq_true.2 fun c mem => ?_
  rw [List.eq_of_mem_replicate mem]
  decide

end SourceLine

theorem Fragment.toList_render (fragment : Fragment) :
    fragment.render.toList = SourceLine.source (fragment.lines 0) := by
  simp [render, SourceLine.source, List.flatMap_map]

namespace Comments

/-- A place where a line can start that is not inside quotes. -/
def Mode.Starts (mode : Mode) : Prop := mode = .code ∨ mode = .block false

theorem Mode.Starts.quotes {mode : Mode} (h : mode.Starts) : mode.quotes = none := by
  rcases h with rfl | rfl <;> rfl

theorem Mode.Starts.nextLine {mode : Mode} (h : mode.Starts) : mode.nextLine = mode := by
  rcases h with rfl | rfl <;> rfl

theorem Mode.starts_nextLine {mode : Mode} (h : mode.quotes = none) : mode.nextLine.Starts := by
  cases mode with
  | quoted => cases h
  | code | line => exact .inl rfl
  | block => exact .inr rfl

/-- From a start in one place on, the lines add these tokens to a stripped source, and what
follows them starts in the other. -/
def Adds (mode : Mode) (lines : List SourceLine) (kinds : List TokenKind) (next : Mode) : Prop :=
  ∀ more others, Scans (tidy (erase next more)) others →
    Scans (tidy (erase mode (SourceLine.source lines ++ more))) (kinds ++ others)

theorem Adds.nil {mode : Mode} : Adds mode [] [] mode := fun _ _ h => h

theorem Adds.append {mode middle next : Mode} {lines lines' : List SourceLine}
    {kinds kinds' : List TokenKind} (h : Adds mode lines kinds middle)
    (h' : Adds middle lines' kinds' next) : Adds mode (lines ++ lines') (kinds ++ kinds') next := by
  intro more others scans
  rw [SourceLine.source, List.flatMap_append, List.append_assoc, List.append_assoc]
  exact h _ _ (h' _ _ scans)

/-- The indentation of a line is told apart from it. -/
theorem erase_indent {mode : Mode} (starts : mode.Starts) (depth : Nat) (more : List Char) :
    ∃ blanks, Text.allBlank blanks ∧ '\n' ∉ blanks ∧
      erase mode (List.replicate depth ' ' ++ more) = blanks ++ erase mode more := by
  have apart : Apart (List.replicate depth ' ') more := by
    intro slash
    have mem := List.mem_of_getLast? slash
    cases List.eq_of_mem_replicate mem
  have stays : after mode (List.replicate depth ' ') = mode := by
    clear apart
    induction depth with
    | zero => simp [after]
    | succ depth ih =>
      rcases starts with rfl | rfl
      · simpa [List.replicate_succ, after] using ih
      · simpa [List.replicate_succ, after, insideBlock] using ih
  refine ⟨erase mode (List.replicate depth ' '),
    allBlank_erase mode (SourceLine.allBlank_indent depth), not_mem_erase fun mem => ?_, ?_⟩
  · cases List.eq_of_mem_replicate mem
  · rw [(erase_append apart).erased, stays]

/-- A line adds its tokens if it does not end inside quotes. -/
theorem Adds.line {mode : Mode} (starts : mode.Starts) {line : SourceLine}
    (oneLine : '\n' ∉ line.text.toList) (ends : (after mode line.text.toList).quotes = none)
    {kinds : List TokenKind} (scans : Scans (erase mode line.text.toList) kinds) :
    Adds mode [line] kinds (after mode line.text.toList).nextLine := by
  intro more others scansMore
  obtain ⟨blanks, isBlank, noBreak, eq⟩ :=
    erase_indent starts (4 * line.depth) (line.text.toList ++ '\n' :: more)
  have written : SourceLine.source [line] ++ more =
      List.replicate (4 * line.depth) ' ' ++ (line.text.toList ++ '\n' :: more) := by
    simp [SourceLine.source, SourceLine.toList_written, SourceLine.chars]
  rw [written, eq, (erase_line mode _ more).1, ← List.append_assoc]
  have closes : Closes (blanks ++ erase mode line.text.toList) :=
    (closes_of_blank isBlank).append (closes_erase starts.quotes ends)
  have oneLine : '\n' ∉ blanks ++ erase mode line.text.toList := by
    rw [List.mem_append, not_or]
    exact ⟨noBreak, not_mem_erase oneLine⟩
  exact (scans_tidy_line oneLine closes).2 ⟨kinds, others, rfl, scans.blank isBlank, scansMore⟩

/-! ## Configured texts -/

/-- No line of a text ends inside quotes, the last one apart. -/
def Unbroken (mode : Mode) (text : List Char) : Prop :=
  ∀ front, front ++ ['\n'] <+: text → (after mode front).quotes = none

instance (mode : Mode) (text : List Char) : Decidable (Unbroken mode text) :=
  decidable_of_iff (∀ front ∈ text.inits, front ++ ['\n'] <+: text →
    (after mode front).quotes = none) (by
      simp only [List.mem_inits, Unbroken]
      exact ⟨fun h front line => h front ((List.prefix_append ..).trans line) line,
        fun h front _ => h front⟩)

theorem Unbroken.line {mode : Mode} {line more : List Char}
    (h : Unbroken mode (line ++ '\n' :: more)) :
    (after mode line).quotes = none ∧ Unbroken (after mode line).nextLine more := by
  constructor
  · exact h line (by simp)
  · intro front isLine
    rw [← (erase_line mode line front).2]
    exact h _ (by simpa using isLine)

/-- The lines of a text that hold more than blanks, as generated lines. -/
def kept (depth : Nat) (text : List Char) : List SourceLine :=
  (tidyLines text).map fun line => ⟨depth, String.ofList line⟩

/-- A configured line adds the tokens that it has without its comments, trimmed or left out. -/
theorem adds_tidyLine {mode : Mode} (starts : mode.Starts) (depth : Nat) {line : List Char}
    (oneLine : '\n' ∉ line) (ends : (after mode line).quotes = none) {kinds : List TokenKind}
    (scans : Scans (erase mode line) kinds) :
    Adds mode ((tidyLine line).map fun line => ⟨depth, String.ofList line⟩) kinds
      (after mode line).nextLine := by
  unfold tidyLine
  split
  · rename_i isBlank
    rw [scans.of_allBlank (allBlank_erase mode isBlank), after_blanks mode isBlank,
      starts.nextLine]
    exact .nil
  · obtain ⟨blanks, isBlank, eq⟩ := Text.exists_trimEnd line
    generalize Text.trimEnd line = trimmed at eq ⊢
    subst eq
    have told : Told mode trimmed blanks := erase_append (apart_blanks trimmed isBlank)
    have next : (after mode (trimmed ++ blanks)).nextLine = (after mode trimmed).nextLine := by
      rw [told.place, after_blanks _ isBlank]
    have ends : (after mode trimmed).quotes = none := by
      rwa [← Mode.quotes_nextLine, ← next, Mode.quotes_nextLine]
    rw [told.erased, scans_append_blanks (closes_erase starts.quotes ends)
      (allBlank_erase _ isBlank)] at scans
    rw [next]
    have adds := @Adds.line mode starts ⟨depth, String.ofList trimmed⟩
    simp only [String.toList_ofList] at adds
    exact adds (fun mem => oneLine (List.mem_append_left _ mem)) ends scans

/-- A text that has tokens without its comments adds them, if no line but the last could end
inside quotes; then the last does not either. -/
theorem adds_kept {mode : Mode} (starts : mode.Starts) (depth : Nat) (text : List Char)
    (unbroken : Unbroken mode text) {kinds : List TokenKind}
    (scans : Scans (tidy (erase mode text)) kinds) :
    (after mode text).quotes = none ∧
      Adds mode (kept depth text) kinds (after mode text).nextLine := by
  by_cases broken : '\n' ∈ text
  · obtain ⟨line, more, rfl, oneLine⟩ := List.eq_append_cons_of_mem broken
    obtain ⟨ends, unbroken⟩ := unbroken.line
    have closes : Closes (erase mode line) := closes_erase starts.quotes ends
    rw [(erase_line mode line more).1, scans_tidy_line (not_mem_erase oneLine) closes] at scans
    obtain ⟨front, others, rfl, scansLine, scansMore⟩ := scans
    have first := adds_tidyLine starts depth oneLine ends scansLine
    have rest := adds_kept (Mode.starts_nextLine ends) depth more unbroken scansMore
    rw [(erase_line mode line more).2, kept, tidyLines_line oneLine, List.map_append]
    exact ⟨rest.1, first.append rest.2⟩
  · have closes := closes_of_tidy_last (not_mem_erase broken) scans
    have ends : (after mode text).quotes = none := by
      rw [← quoting_erase, starts.quotes]
      exact closes
    rw [scans_tidy_last (not_mem_erase broken) closes] at scans
    rw [kept, tidyLines_last broken]
    exact ⟨ends, adds_tidyLine starts depth broken ends scans⟩
termination_by text.length

end Comments

end ScriptHost
