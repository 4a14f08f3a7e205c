import ScriptHost.Proofs.Assembly.Escaping
import ScriptHost.Proofs.Assembly.Literals
import ScriptHost.Proofs.Script.Printing
/-!
# Routines that print a text

A routine can be made to print a text by putting the text between quotes behind `print`, with a
backslash before each quote of it. Up to the opening quote the source of the routine is the same for
every text. What follows (`afterQuote`) is the text as it is laid, and where the quotes close
depends on the text: with a backslash in it they may close early, and what is left is code then.
Whatever that does, the line that is printed first is what stands between the quotes.

**Results.**
* `source_printing`, `scans_printing_iff`: the source of such a routine, and its tokens.
* `not_mem_of_printed`, `afterQuote_eq`: a text with a backslash is not read back; one without is,
  as it is laid.
* `printed_first`, `prints_read`: what the routine prints first, and all that it does if it ends
  behind the text.
-/
namespace ScriptHost

open Comments Scanner Grammar

/-! ## Sources -/

/-- How a statement starts that prints a quoted text, up to the quote. -/
def printMark : List Char := ['p', 'r', 'i', 'n', 't', ' ', '*']

/-- The statement that prints a text, with a backslash before each quote of it. -/
def printing (text : List Char) : String :=
  String.ofList (printMark ++ '"' :: (escapeQuotes text ++ ['"']))

/-- How the source of a routine starts that does. -/
def routineMark : List Char :=
  ['d', 'e', 'f', ' ', 'm', 'a', 'i', 'n', ' ', '=', ' ', '\x7b', '\n', ' ', ' ', ' ', ' '] ++
    printMark

/-- How it ends. -/
def routineEnd : List Char := ['\n', '\x7d', '\n']

theorem isBlankText_printing (text : List Char) : isBlankText (printing text) = false := by
  have solid : Text.isBlank 'p' = false := by decide
  rw [isBlankText, printing, String.toList_ofList, printMark, List.cons_append, List.all_cons,
    solid, Bool.false_and]

theorem source_kept_printing (text : List Char) :
    SourceLine.source (kept 1 (printing text).toList) =
      [' ', ' ', ' ', ' '] ++ printMark ++
        '"' :: (laid 1 false [] (escapeQuotes text ++ ['"']) ++ ['\n']) := by
  refine List.cons_injective (a := '\n') ?_
  have front : laid 1 true [] (printMark ++ ['"']) =
      '\n' :: ([' ', ' ', ' ', ' '] ++ printMark ++ ['"']) := by decide
  show '\n' :: SourceLine.source _ = _
  rw [source_kept, printing, String.toList_ofList, laid_append (by decide), front]
  simp

theorem render_printing (text : List Char) :
    (Fragment.routine mainRoutine (.literal (printing text))).render.toList =
      routineMark ++ '"' :: (laid 1 false [] (escapeQuotes text ++ ['"']) ++ routineEnd) := by
  have first : SourceLine.source [⟨0, "def " ++ mainRoutine ++ " = \x7b"⟩] =
      ['d', 'e', 'f', ' ', 'm', 'a', 'i', 'n', ' ', '=', ' ', '\x7b', '\n'] := by decide
  have last : SourceLine.source [⟨0, "\x7d"⟩] = ['\x7d', '\n'] := by decide
  rw [Fragment.toList_render]
  show SourceLine.source ([⟨0, "def " ++ mainRoutine ++ " = \x7b"⟩] ++
    (SourceLine.ofText 1 (printing text) ++ [⟨0, "\x7d"⟩])) = _
  rw [source_append, source_append, first, last,
    SourceLine.ofText_kept 1 (isBlankText_printing text), source_kept_printing]
  simp [routineMark, routineEnd]

/-- What stands behind the quote in front of the text, up to the end of the source. -/
def afterQuote (text : List Char) : List Char :=
  laid 0 false [] (erase (.quoted false)
    (laid 1 false [] (escapeQuotes text ++ ['"']) ++ routineEnd)) ++ ['\n']

theorem source_printing (text : List Char) :
    (assembleRoutine mainRoutine (printing text)).toList =
      routineMark ++ '"' :: afterQuote text := by
  have plain : '/' ∉ routineMark ∧ '"' ∉ routineMark := by decide
  have front : laid 0 true [] (routineMark ++ ['"']) = '\n' :: (routineMark ++ ['"']) := by decide
  refine List.cons_injective (a := '\n') ?_
  show '\n' :: (String.ofList (tidy (erase .code _))).toList = _
  rw [String.toList_ofList, tidy_eq_laid, render_printing, erase_plain plain, erase, if_pos rfl,
    laid_append (by decide), front, afterQuote]
  · simp
  all_goals simp

/-! ## Tokens -/

/-- The tokens in front of the text that a routine prints. -/
def routineTokens : List TokenKind :=
  [.word "def", .word mainRoutine, .equals, .openBrace, .word "print"]

theorem scans_printing_iff {text : List Char} {kinds : List TokenKind} :
    Scans (assembleRoutine mainRoutine (printing text)).toList kinds ↔
      ∃ body behind inside others, afterQuote text = body ++ '"' :: behind ∧
        unquote false body = some inside ∧ Scans behind others ∧
        kinds = routineTokens ++ .text (String.ofList inside) :: others := by
  have front : Scans ['d', 'e', 'f', ' ', 'm', 'a', 'i', 'n', ' ', '=', ' ', '\x7b', '\n',
      ' ', ' ', ' ', ' ', 'p', 'r', 'i', 'n', 't'] routineTokens :=
    @scans_of_tokenize "def main = \x7b\n    print" _ (by decide +kernel)
  have cut : routineMark ++ '"' :: afterQuote text = ['d', 'e', 'f', ' ', 'm', 'a', 'i', 'n', ' ',
      '=', ' ', '\x7b', '\n', ' ', ' ', ' ', ' ', 'p', 'r', 'i', 'n', 't'] ++
        ([' '] ++ '*' :: '"' :: afterQuote text) := rfl
  rw [source_printing, cut, scans_between_iff front.closes (by decide) (by decide)]
  simp only [scans_quoted_iff]
  constructor
  · rintro ⟨_, _, rfl, scans, body, behind, inside, others, whole, read, more, rfl⟩
    exact ⟨body, behind, inside, others, whole, read, more, by rw [scans.unique front]⟩
  · rintro ⟨body, behind, inside, others, whole, read, more, rfl⟩
    exact ⟨_, _, rfl, front, body, behind, inside, others, whole, read, more, rfl⟩

/-- A text that is read back where it is printed has no backslash. -/
theorem not_mem_of_printed {text body behind : List Char}
    (whole : afterQuote text = body ++ '"' :: behind) (read : unquote false body = some text) :
    '\\' ∉ text := by
  have solid : Text.isBlank '\\' = false := by decide
  have needed := count_unquote read
  have written : (afterQuote text).count '\\' ≤ text.count '\\' + text.count '"' := by
    have erased := (erase_sublist (.quoted false)
      (laid 1 false [] (escapeQuotes text ++ ['"']) ++ routineEnd)).count_le '\\'
    rw [List.count_append, count_laid solid rfl, List.count_append, count_escapeQuotes] at erased
    rw [afterQuote, List.count_append, count_laid solid rfl]
    simpa [routineEnd] using erased
  rw [whole, List.count_append] at written
  simp only [Bool.false_eq_true, if_false] at needed
  rw [← List.count_eq_zero]
  omega

/-- A text without backslashes is printed as it is laid. -/
theorem afterQuote_eq {text : List Char} (plain : '\\' ∉ text) :
    ∃ body inside, afterQuote text = body ++ '"' :: routineEnd ∧
      unquote false body = some inside ∧
      laid 1 false [] (text ++ ['"']) = inside ++ ['"'] := by
  obtain ⟨body, inside, eq, eq', read⟩ := @unquote_laid_escaped 1 false [] rfl text plain
  refine ⟨body, inside, ?_, read, eq'⟩
  have erased : erase (.quoted false) (body ++ ['"'] ++ routineEnd) =
      body ++ ['"'] ++ routineEnd := by
    have rest : erase .code routineEnd = routineEnd := by decide
    rw [List.append_assoc, List.singleton_append, erase_quoted (by rw [read]; rfl), rest]
  have last : laid 0 true [] ['\x7d', '\n'] = ['\n', '\x7d'] := by decide
  rw [afterQuote, eq, erased, ← eq, routineEnd, laid_laid rfl (by simp) (.inr ⟨rfl, rfl⟩), last, eq]
  simp

/-! ## Runs -/

theorem Grammar.Reads.eq_print {actions : Table HostAction} {s : Statement} {content : String}
    {rest after : List TokenKind}
    (h : Reads actions (.statement s) (.word "print" :: .text content :: rest) after) :
    s = .print (.constant content) := by
  have word : Keyword.ofWord? "print" = some .print := rfl
  cases h with
  | print _ line =>
    cases line
    rfl
  | literal keyword | negate keyword | choose keyword | chooseElse keyword | attempt keyword
  | throw keyword | wait keyword | host keyword =>
    rw [word] at keyword
    cases keyword

section Running

variable {engine : Engine} {namespaces : List String} {text : List Char} {unit : CompiledUnit}

/-- The first statement of the routine prints what stands between the first quotes. -/
theorem printed_first
    (compiled : engine.compile (assembleRoutine mainRoutine (printing text)) namespaces = .ok unit)
    (context : Context) :
    ∃ body behind inside, afterQuote text = body ++ '"' :: behind ∧
      unquote false body = some inside ∧
      ({ context with output := context.output.push (.line (String.ofList inside)) } :
        Context).PrintsOn (unit.invoke mainRoutine context).2 := by
  obtain ⟨-, -, _, tokens, -, scanned, -⟩ := Engine.compile_ok_iff.1 compiled
  obtain ⟨front, -, scans⟩ := all_sound scanned
  obtain ⟨body, behind, inside, others, whole, read, -, rfl⟩ := scans_printing_iff.1 scans
  refine ⟨body, behind, inside, whole, read, ?_⟩
  obtain ⟨-, -, actions, list, -, defines, linked, -⟩ :=
    (Engine.compile_routines_iff scans rfl).1 compiled
  have some : ∃ others, unit.blocks.get? mainRoutine =
      some (.block (.print (.constant (String.ofList inside)) :: others)) := by
    cases defines with
    | @more _ _ _ _ _ _ reads _ =>
      cases reads with
      | bodyMore first _ =>
        rw [first.eq_print] at linked
        exact ⟨_, (get?_link linked).2 (.inr ⟨_, .head _, rfl⟩)⟩
  obtain ⟨others, found⟩ := some
  exact CompiledUnit.invoke_printsOn found context

/-- A text after which the routine ends makes a routine that compiles, and prints what it is read
as. -/
theorem prints_read (known : ∀ space ∈ namespaces, engine.hasNamespace space)
    {body inside : List Char} (whole : afterQuote text = body ++ '"' :: routineEnd)
    (read : unquote false body = some inside) :
    ∃ unit, engine.compile (assembleRoutine mainRoutine (printing text)) namespaces = .ok unit ∧
      ∀ context, unit.invoke mainRoutine context =
        (.ok .null,
          { context with output := context.output.push (.line (String.ofList inside)) }) := by
  obtain ⟨actions, visible⟩ := Engine.actions_ok_iff.2 known
  have closing : Scans routineEnd [.closeBrace] :=
    @scans_of_tokenize "\n\x7d\n" _ (by decide +kernel)
  have scans := scans_printing_iff.2 ⟨body, routineEnd, inside, _, whole, read, closing, rfl⟩
  let unit : CompiledUnit :=
    { source := assembleRoutine mainRoutine (printing text)
      namespaces
      blocks := Table.empty.insert mainRoutine
        (.block [.print (.constant (String.ofList inside))]) }
  have found (name : String) : unit.blocks.get? name =
      if mainRoutine = name then some (.block [.print (.constant (String.ofList inside))])
      else none := by
    rw [Table.get?_insert, Table.get?_empty]
  have resolved : Resolved unit.blocks := by
    intro name s known
    rw [found] at known
    split at known
    · cases known
      simp [Statement.calls, Statement.callsOfAll]
    · cases known
  refine ⟨unit, (Engine.compile_routines_iff scans rfl).2 ⟨rfl, rfl, actions, _, visible,
    .more (.bodyMore (.print rfl .text) .bodyEnd) .done, rfl, resolved⟩, fun context => ?_⟩
  rw [CompiledUnit.invoke, found, if_pos rfl]
  simp only [Statement.run, Statement.eval, Statement.evalAll]
  rfl

end Running

end ScriptHost
