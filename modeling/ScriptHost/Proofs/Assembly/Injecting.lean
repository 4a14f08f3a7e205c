import Mathlib.Data.List.Forall2
import ScriptHost.Proofs.Assembly.Stripping
import ScriptHost.Proofs.Script.Compiling
import ScriptHost.Proofs.Script.Spelling
/-!
# What assembling injects

The source of a handler is compiled to its configured statements and to nothing else but the
control flow around them: no text runs on into its neighbour, whatever comments, quotes and braces
it holds. `Injectable` says what a text must be for that, all of it about the text alone.

`Writes` goes with the tree of fragments: generated lines make up tokens, and before a closing
brace the tokens are read as statements.

**Results.**
* `Comments.erase_quotedLiteral`: what a matcher holds is no comment.
* `Injectable.writes`, `writes_guarded`, `writes_conditional`: what each kind of fragment writes.
* `assembleHandler_injects`: what the source of a handler is compiled to.
-/
namespace ScriptHost

open Comments Scanner Grammar

/-! ## Single lines -/

theorem Comments.after_plain {text : List Char} (h : '/' ∉ text ∧ '"' ∉ text) :
    after .code text = .code := by
  induction text with
  | nil => rfl
  | cons c rest ih =>
    simp only [List.mem_cons, not_or] at h
    have noSlash (d : Char) : ∀ others, c = '/' → rest = d :: others → False :=
      fun _ slash => absurd slash (Ne.symm h.1.1)
    rw [after_code (noSlash _) (noSlash _), if_neg (Ne.symm h.2.1), ih ⟨h.1.2, h.2.2⟩]

/-- A text without quotes keeps its tokens when it is tidied, however many lines it has. -/
theorem Comments.scans_tidy_plain (text : List Char) (noQuote : '"' ∉ text)
    {more : List Char} {kinds others : List TokenKind} (scans : Scans text kinds)
    (scansMore : Scans (tidy more) others) :
    Scans (tidy (text ++ '\n' :: more)) (kinds ++ others) := by
  by_cases broken : '\n' ∈ text
  · obtain ⟨line, rest, rfl, oneLine⟩ := List.eq_append_cons_of_mem broken
    simp only [List.mem_append, List.mem_cons, not_or] at noQuote
    have closes : Closes line := closes_of_plain noQuote.1
    obtain ⟨front, kinds, rfl, scansLine, scansRest⟩ :=
      (scans_blank_iff closes (by decide)).1 scans
    rw [List.append_assoc, List.cons_append, scans_tidy_line oneLine closes]
    exact ⟨front, kinds ++ others, List.append_assoc .., scansLine,
      scans_tidy_plain rest noQuote.2.2 scansRest scansMore⟩
  · rw [scans_tidy_line broken (closes_of_plain noQuote)]
    exact ⟨kinds, others, rfl, scans, scansMore⟩
termination_by text.length

theorem Comments.Adds.plain (depth : Nat) {text : String}
    (plain : '/' ∉ text.toList ∧ '"' ∉ text.toList) {kinds : List TokenKind}
    (scans : Scans text.toList kinds) : Adds .code [⟨depth, text⟩] kinds .code := by
  intro more others scansMore
  have free {c : Char} (h : c ≠ ' ') (absent : c ∉ text.toList) :
      c ∉ List.replicate (4 * depth) ' ' ++ text.toList := by
    rw [List.mem_append, not_or]
    exact ⟨fun mem => h (List.eq_of_mem_replicate mem), absent⟩
  have noSlash := free (by decide) plain.1
  have noQuote := free (by decide) plain.2
  have written : SourceLine.source [⟨depth, text⟩] ++ more =
      (List.replicate (4 * depth) ' ' ++ text.toList) ++ '\n' :: more := by
    simp [SourceLine.source, SourceLine.toList_written, SourceLine.chars]
  rw [written, erase_plain ⟨noSlash, noQuote⟩, (erase_break .code more).1]
  exact scans_tidy_plain _ noQuote (scans.blank (SourceLine.allBlank_indent _)) scansMore

/-! ## Quoted texts -/

theorem Comments.erase_quoteChar (text more : List Char) :
    erase (.quoted false) (text.flatMap quoteChar ++ '"' :: more) =
        text.flatMap quoteChar ++ '"' :: erase .code more ∧
      after (.quoted false) (text.flatMap quoteChar ++ '"' :: more) = after .code more := by
  induction text with
  | nil => simp [erase, after, insideQuotes]
  | cons c rest ih =>
    rw [List.flatMap_cons, List.append_assoc, List.append_assoc]
    rcases quoteChar_cases c with ⟨eq, noQuote, noSlash, -⟩ | ⟨d, eq, -, -⟩
    · simp [eq, erase, after, insideQuotes, noQuote, noSlash, ih]
    · simp [eq, erase, after, insideQuotes, ih]

theorem Comments.erase_quotedLiteral (text : String) (more : List Char) :
    erase .code ((quotedLiteral text).toList ++ more) =
        (quotedLiteral text).toList ++ erase .code more ∧
      after .code ((quotedLiteral text).toList ++ more) = after .code more := by
  have inside := erase_quoteChar text.toList more
  have eq : (quotedLiteral text).toList ++ more =
      '"' :: (text.toList.flatMap quoteChar ++ '"' :: more) := by
    simp [toList_quotedLiteral]
  rw [eq]
  simp [erase, after, inside, toList_quotedLiteral]

theorem not_mem_quotedLiteral (text : String) : '\n' ∉ (quotedLiteral text).toList := by
  have inside : '\n' ∉ text.toList.flatMap quoteChar := by
    rw [List.mem_flatMap]
    rintro ⟨c, -, mem⟩
    rcases quoteChar_cases c with ⟨eq, -, -, noBreak⟩ | ⟨d, eq, noBreak, -⟩
    · rw [eq, List.mem_singleton] at mem
      exact noBreak mem.symm
    · simp [eq, noBreak.symm] at mem
  rw [toList_quotedLiteral]
  simp [inside]

/-! ## Lines around the configured texts -/

theorem scans_of_tokenize {text : String} {front : List TokenKind}
    (h : (tokenize text).map kinds = .ok (front ++ [.endOfSource])) :
    Scans text.toList front := by
  obtain ⟨tokens, made, eq⟩ := map_eq_ok.1 h
  obtain ⟨front', eq', scans⟩ := all_sound made
  have same : front ++ [.endOfSource] = front' ++ [.endOfSource] := eq.symm.trans eq'
  rwa [List.append_cancel_right same]

/-- The pieces of control flow around the configured texts, with their tokens. -/
def controlPieces : List (String × List TokenKind) :=
  [(nullStatement, [.word "null"]), ("def", [.word "def"]), ("= \x7b", [.equals, .openBrace]),
    ("\x7b", [.openBrace]), ("\x7d", [.closeBrace]), ("try \x7b", [.word "try", .openBrace]),
    ("\x7d catch with", [.closeBrace, .word "catch", .word "with"]),
    ("if \x7b", [.word "if", .openBrace]),
    ("\x7d then \x7b", [.closeBrace, .word "then", .openBrace]),
    ("\x7d else \x7b", [.closeBrace, .word "else", .openBrace])]

theorem controlPieces_plain : ∀ piece ∈ controlPieces,
    (tokenize piece.1).map kinds = .ok (piece.2 ++ [.endOfSource]) ∧
      '/' ∉ piece.1.toList ∧ '"' ∉ piece.1.toList := by
  decide +kernel

section Control

variable {text : String} {front : List TokenKind}

theorem scans_control (h : (text, front) ∈ controlPieces) : Scans text.toList front :=
  scans_of_tokenize (controlPieces_plain _ h).1

theorem adds_control (depth : Nat) (h : (text, front) ∈ controlPieces) :
    Adds .code [⟨depth, text⟩] front .code :=
  .plain depth (controlPieces_plain _ h).2 (scans_control h)

end Control

theorem adds_close (depth : Nat) : Adds .code [⟨depth, "\x7d"⟩] [.closeBrace] .code :=
  adds_control depth (by simp [controlPieces])

theorem adds_try (depth : Nat) : Adds .code [⟨depth, "try \x7b"⟩] [.word "try", .openBrace] .code :=
  adds_control depth (by simp [controlPieces])

/-- Lines under a condition, with what runs if it does not hold. -/
theorem adds_conditional (depth : Nat) {condition body deny : List SourceLine}
    {test inside refusal : List TokenKind} (h : Adds .code condition test .code)
    (h' : Adds .code body inside .code) (h'' : Adds .code deny refusal .code) :
    Adds .code (⟨depth, "if \x7b"⟩ :: condition ++ ⟨depth, "\x7d then \x7b"⟩ :: body ++
        ⟨depth, "\x7d else \x7b"⟩ :: deny ++ [⟨depth, "\x7d"⟩])
      ([.word "if", .openBrace] ++ (test ++ ([.closeBrace, .word "then", .openBrace] ++ (inside ++
        ([.closeBrace, .word "else", .openBrace] ++ (refusal ++ [.closeBrace])))))) .code := by
  have opens : Adds .code [⟨depth, "if \x7b"⟩] [.word "if", .openBrace] .code :=
    adds_control depth (by simp [controlPieces])
  have goes : Adds .code [⟨depth, "\x7d then \x7b"⟩]
      [.closeBrace, .word "then", .openBrace] .code :=
    adds_control depth (by simp [controlPieces])
  have fails : Adds .code [⟨depth, "\x7d else \x7b"⟩]
      [.closeBrace, .word "else", .openBrace] .code :=
    adds_control depth (by simp [controlPieces])
  have whole := opens.append (h.append (goes.append (h'.append (fails.append
    (h''.append (adds_close depth))))))
  simpa using whole

/-- The line in front of the handler of a clause. -/
def catchLine (matcher : String) : String := "\x7d catch with " ++ quotedLiteral matcher ++ " \x7b"

theorem toList_catchLine (matcher : String) : (catchLine matcher).toList =
    "\x7d catch with ".toList ++ ((quotedLiteral matcher).toList ++ " \x7b".toList) := by
  simp [catchLine]

theorem Comments.erase_catchLine (matcher : String) :
    erase .code (catchLine matcher).toList = (catchLine matcher).toList ∧
      after .code (catchLine matcher).toList = .code := by
  have apart : Apart "\x7d catch with ".toList
      ((quotedLiteral matcher).toList ++ " \x7b".toList) :=
    fun slash => absurd slash (by decide)
  have literal := erase_quotedLiteral matcher " \x7b".toList
  rw [toList_catchLine, (erase_append apart).erased, (erase_append apart).place,
    after_plain (by decide),
    literal.1, literal.2]
  exact ⟨rfl, rfl⟩

theorem scans_catchLine (matcher : String) : Scans (catchLine matcher).toList
    [.closeBrace, .word "catch", .word "with", .text matcher, .openBrace] := by
  have front : Scans "\x7d catch with".toList [.closeBrace, .word "catch", .word "with"] :=
    scans_control (by simp [controlPieces])
  have brace : Scans "\x7b".toList [.openBrace] := scans_control (by simp [controlPieces])
  have literal : Scans ((quotedLiteral matcher).toList ++ ' ' :: "\x7b".toList)
      ([.text matcher] ++ [.openBrace]) :=
    (scans_quotedLiteral matcher).append_blank brace (by decide)
  have whole : (catchLine matcher).toList = "\x7d catch with".toList ++
      ' ' :: ((quotedLiteral matcher).toList ++ ' ' :: "\x7b".toList) := by
    simp [catchLine]
  rw [whole]
  exact front.append_blank literal (by decide)

theorem adds_catchLine (depth : Nat) (matcher : String) : Adds .code [⟨depth, catchLine matcher⟩]
    [.closeBrace, .word "catch", .word "with", .text matcher, .openBrace] .code := by
  have oneLine : '\n' ∉ (catchLine matcher).toList := by
    rw [toList_catchLine, List.mem_append, List.mem_append, not_or, not_or]
    exact ⟨by decide, not_mem_quotedLiteral matcher, by decide⟩
  have told := erase_catchLine matcher
  have adds := @Adds.line .code (.inl rfl) ⟨depth, catchLine matcher⟩ oneLine
    (by rw [told.2]; rfl) _ (by rw [told.1]; exact scans_catchLine matcher)
  rwa [told.2] at adds

/-- The line that opens a routine, whatever way its name is written in. -/
theorem adds_opening {entry name : String} (scans : Scans entry.toList [.word name])
    (depth : Nat) : Adds .code [⟨depth, "def " ++ entry ++ " = \x7b"⟩]
      [.word "def", .word name, .equals, .openBrace] .code := by
  have eq : ("def " ++ entry ++ " = \x7b").toList =
      "def".toList ++ ' ' :: (entry.toList ++ ' ' :: "= \x7b".toList) := by
    simp
  have plain := scans.word_plain
  refine .plain depth ?_ ?_
  · rw [eq]
    simp [plain]
  · have first : Scans "def".toList [.word "def"] := scans_control (by simp [controlPieces])
    have last : Scans "= \x7b".toList [.equals, .openBrace] :=
      scans_control (by simp [controlPieces])
    have rest : Scans (entry.toList ++ ' ' :: "= \x7b".toList)
        ([.word name] ++ [.equals, .openBrace]) := scans.append_blank last (by decide)
    rw [eq]
    exact first.append_blank rest (by decide)

/-! ## Configured texts -/

/-- The statements of a source without routines. -/
def Engine.statements (engine : Engine) (namespaces : List String) (source : String) :
    Except CompileError (List Statement) := do
  let actions ← engine.actions namespaces
  let tokens ← tokenize source
  Grammar.statements actions tokens

/-- A text that can stand anywhere in the source of a routine: it closes the block comments that
it opens, none of its quoted texts holds a line feed, and without its comments it is these
statements, which call no routine but the one that they stand in. -/
structure Injectable (engine : Engine) (namespaces : List String) (routine text : String)
    (list : List Statement) : Prop where
  closed : ∀ closing, after .code text.toList ≠ .block closing
  unbroken : Unbroken .code text.toList
  statements : engine.statements namespaces (stripComments text) = .ok list
  calls : ∀ name ∈ Statement.callsOfAll list, name = routine

/-- The statements that stand in a source for a text: `null` for a blank one, else its own. -/
inductive StandsFor (engine : Engine) (namespaces : List String) (routine text : String) :
    List Statement → Prop
  | null : isBlankText text → StandsFor engine namespaces routine text [.literal .null]
  | own {list} : isBlankText text = false → Injectable engine namespaces routine text list →
      StandsFor engine namespaces routine text list

/-- The lines are made of tokens that are read as these statements once a brace closes them. -/
def Writes (actions : Table HostAction) (lines : List SourceLine) (list : List Statement) : Prop :=
  ∃ kinds, Adds .code lines kinds .code ∧
    ∀ after, Reads actions (.body list) (kinds ++ .closeBrace :: after) after

section Writes

variable {engine : Engine} {namespaces : List String} {routine : String}
  {actions : Table HostAction}

/-- A text that closes what it opens adds the tokens that it has without its comments. -/
theorem Comments.adds_stripped (depth : Nat) {text : String}
    (closed : ∀ closing, after .code text.toList ≠ .block closing)
    (unbroken : Unbroken .code text.toList) {kinds : List TokenKind}
    (scans : Scans (stripComments text).toList kinds) :
    Adds .code (kept depth text.toList) kinds .code := by
  rw [stripComments_eq, String.toList_ofList] at scans
  obtain ⟨ends, adds⟩ := adds_kept (.inl rfl) depth text.toList unbroken scans
  have next : (after .code text.toList).nextLine = .code := by
    cases place : after .code text.toList with
    | code | line => rfl
    | quoted => simp [place, Mode.quotes] at ends
    | block closing => exact absurd place (closed closing)
  rwa [next] at adds

theorem SourceLine.ofText_kept (depth : Nat) {text : String} (notBlank : isBlankText text = false) :
    SourceLine.ofText depth text = kept depth text.toList := by
  rw [SourceLine.ofText, if_neg (by simp [notBlank]), kept, tidyLines, List.map_map]
  rfl

theorem Injectable.writes {text : String} {list : List Statement}
    (h : Injectable engine namespaces routine text list)
    (visible : engine.actions namespaces = .ok actions) (depth : Nat) :
    Writes actions (kept depth text.toList) list := by
  have made := h.statements
  rw [Engine.statements, visible, ok_bind] at made
  obtain ⟨tokens, scanned, made⟩ := bind_eq_ok.1 made
  obtain ⟨front, eq, scans⟩ := all_sound scanned
  exact ⟨front, adds_stripped depth h.closed h.unbroken scans, statements_body made eq scans.no_end⟩

theorem StandsFor.writes {text : String} {list : List Statement}
    (h : StandsFor engine namespaces routine text list)
    (visible : engine.actions namespaces = .ok actions) (depth : Nat) :
    Writes actions (SourceLine.ofText depth text) list := by
  cases h with
  | null isBlank =>
    rw [SourceLine.ofText, if_pos isBlank]
    refine ⟨[.word "null"], adds_control depth (by simp [controlPieces]), fun after => ?_⟩
    exact .bodyMore (.literal rfl) .bodyEnd
  | own notBlank injectable =>
    rw [SourceLine.ofText_kept depth notBlank]
    exact injectable.writes visible depth

end Writes

/-! ## Control flow -/

/-- Whether a handler has a guard: it has more than one clause, or its only one has a handler. -/
def Guarded (clauses : List ExceptionClause) : Prop :=
  1 < clauses.length ∨ ∃ clause ∈ clauses, isBlankText clause.handler = false

instance (clauses : List ExceptionClause) : Decidable (Guarded clauses) :=
  inferInstanceAs (Decidable (_ ∨ _))

theorem needsGuard_iff (clauses : List ExceptionClause) :
    needsGuard clauses ↔ Guarded clauses := by
  rcases clauses with _ | ⟨first, _ | ⟨second, rest⟩⟩ <;> simp [needsGuard, Guarded]

/-- The clauses of a guard, each with the statements of its handler. -/
def catching (clauses : List ExceptionClause) (caught : List (List Statement)) :
    List (String × Statement) :=
  List.zipWith (fun clause list => (clause.matcher, .block list)) clauses caught

/-- Statements in a guard, if there is one. -/
def guarding (clauses : List ExceptionClause) (caught : List (List Statement))
    (body : List Statement) : List Statement :=
  if Guarded clauses then [.attempt (.block body) (catching clauses caught)] else body

def conditioning (condition : String) (tested denied body : List Statement) : List Statement :=
  if isBlankText condition then body
  else [.choose (.deferred (.block tested)) (.block body) (some (.block denied))]

section Writes

variable {actions : Table HostAction} {depth : Nat}

/-- The clauses of a guard up to the brace that closes it, from the one that closes its body
on. -/
theorem writes_clauses {clauses : List ExceptionClause} {caught : List (List Statement)}
    (h : List.Forall₂ (fun clause list =>
      Writes actions (SourceLine.ofText (depth + 1) clause.handler) list) clauses caught) :
    ∃ kinds, Adds .code ((clauses.flatMap fun clause => ⟨depth, catchLine clause.matcher⟩ ::
        SourceLine.ofText (depth + 1) clause.handler) ++ [⟨depth, "\x7d"⟩])
          (.closeBrace :: kinds) .code ∧
      ∀ after : List TokenKind, after.head? ≠ some (.word "catch") →
        Reads actions (.clauses (catching clauses caught)) (kinds ++ after) after := by
  induction h with
  | nil =>
    exact ⟨[], adds_close depth, fun after next => .clausesEnd next⟩
  | @cons clause list clauses caught writes _ ih =>
    obtain ⟨inside, adds, reads⟩ := writes
    obtain ⟨kinds, addsRest, readsRest⟩ := ih
    refine ⟨.word "catch" :: .word "with" :: .text clause.matcher :: .openBrace :: inside ++
      .closeBrace :: kinds, ?_, fun after next => ?_⟩
    · have first := (adds_catchLine depth clause.matcher).append (adds.append addsRest)
      simpa using first
    · have all : Reads actions (.clauses (catching (clause :: clauses) (list :: caught)))
          (.word "catch" :: .word "with" :: .text clause.matcher :: .openBrace ::
            (inside ++ .closeBrace :: (kinds ++ after))) after :=
        .clausesMore rfl (.block (reads (kinds ++ after))) (readsRest after next)
      simpa using all

theorem writes_guarded {body : Fragment} {list : List Statement}
    (h : Writes actions (body.lines (depth + 1)) list) {clauses : List ExceptionClause}
    {caught : List (List Statement)} (some : clauses ≠ [])
    (h' : List.Forall₂ (fun clause list =>
      Writes actions (SourceLine.ofText (depth + 1) clause.handler) list) clauses caught) :
    Writes actions ((Fragment.guarded body clauses).lines depth)
      [.attempt (.block list) (catching clauses caught)] := by
  obtain ⟨inside, adds, reads⟩ := h
  obtain ⟨kinds, addsClauses, readsClauses⟩ := writes_clauses h'
  refine ⟨.word "try" :: .openBrace :: inside ++ .closeBrace :: kinds, ?_, fun after => ?_⟩
  · have all := (adds_try depth).append (adds.append addsClauses)
    simpa [Fragment.lines, catchLine] using all
  · have noClause : catching clauses caught ≠ [] := by
      cases h' with
      | nil => exact absurd rfl some
      | cons => simp [catching]
    have guard : Reads actions (.statement (.attempt (.block list) (catching clauses caught)))
        (.word "try" :: .openBrace :: (inside ++ .closeBrace :: (kinds ++ .closeBrace :: after)))
        (.closeBrace :: after) :=
      .attempt rfl (.block (reads _)) (readsClauses _ (by simp)) noClause
    simpa using guard.bodyMore .bodyEnd

theorem writes_conditional {condition deny : String} {body : Fragment}
    {tested denied list : List Statement} (h : Writes actions (body.lines (depth + 1)) list)
    (hTested : Writes actions (SourceLine.ofText (depth + 1) condition) tested)
    (hDenied : Writes actions (SourceLine.ofText (depth + 1) deny) denied) :
    Writes actions ((Fragment.conditional condition body deny).lines depth)
      [.choose (.deferred (.block tested)) (.block list) (some (.block denied))] := by
  obtain ⟨inside, adds, reads⟩ := h
  obtain ⟨test, addsTest, readsTest⟩ := hTested
  obtain ⟨refusal, addsRefusal, readsRefusal⟩ := hDenied
  refine ⟨.word "if" :: .openBrace :: test ++ .closeBrace :: .word "then" :: .openBrace :: inside ++
    .closeBrace :: .word "else" :: .openBrace :: refusal ++ [.closeBrace], ?_, fun after => ?_⟩
  · have all := adds_conditional depth addsTest adds addsRefusal
    simpa [Fragment.lines] using all
  · have choice : Reads actions
        (.statement (.choose (.deferred (.block tested)) (.block list) (some (.block denied))))
        (.word "if" :: .openBrace :: (test ++ .closeBrace :: .word "then" :: .openBrace ::
          (inside ++ .closeBrace :: .word "else" :: .openBrace ::
            (refusal ++ .closeBrace :: .closeBrace :: after)))) (.closeBrace :: after) :=
      .chooseElse rfl (.block (readsTest _)) (.block (reads _)) (.block (readsRefusal _))
    simpa using choice.bodyMore .bodyEnd

theorem Writes.routine {body : Fragment} {list : List Statement}
    (h : Writes actions (body.lines 1) list) {entry name : String}
    (lexed : Scans entry.toList [.word name]) :
    ∃ kinds, Scans (stripComments (Fragment.routine entry body).render).toList
        (.word "def" :: kinds) ∧
      Defines actions [(name, list)] (.word "def" :: kinds ++ [.endOfSource]) [.endOfSource] := by
  obtain ⟨inside, adds, reads⟩ := h
  have all := (adds_opening lexed 0).append (adds.append (adds_close 0))
  refine ⟨.word name :: .equals :: .openBrace :: (inside ++ [.closeBrace]), ?_, ?_⟩
  · have nothing : Scans (tidy (erase .code [])) [] := .done (by simp [erase, Text.allBlank])
    have whole := all [] [] nothing
    rw [stripComments_eq, String.toList_ofList, Fragment.toList_render]
    simpa [Fragment.lines] using whole
  · have routine : Defines actions [(name, list)] (.word "def" :: .word name :: .equals ::
        .openBrace :: (inside ++ .closeBrace :: [.endOfSource])) [.endOfSource] :=
      .more (reads [.endOfSource]) .done
    simpa using routine

end Writes

/-! ## Calls -/

section Calls

variable {engine : Engine} {namespaces : List String} {routine : String}

theorem StandsFor.calls {text : String} {list : List Statement}
    (h : StandsFor engine namespaces routine text list) :
    ∀ name ∈ Statement.callsOfAll list, name = routine := by
  cases h with
  | null => simp [Statement.callsOfAll, Statement.calls]
  | own _ injectable => exact injectable.calls

theorem calls_catching {clauses : List ExceptionClause} {caught : List (List Statement)}
    (h : List.Forall₂ (fun clause list =>
      StandsFor engine namespaces routine clause.handler list) clauses caught) :
    ∀ name ∈ Statement.callsOfClauses (catching clauses caught), name = routine := by
  induction h with
  | nil => simp [catching, Statement.callsOfClauses]
  | @cons clause list clauses caught stands _ ih =>
    intro name mem
    have mem : name ∈ Statement.callsOfAll list ++
        Statement.callsOfClauses (catching clauses caught) := mem
    rcases List.mem_append.1 mem with mem | mem
    · exact stands.calls name mem
    · exact ih name mem

end Calls

/-! ## The whole routine -/

theorem lines_handle (depth : Nat) (handle : String) :
    (Fragment.literal (if isBlankText handle then nullStatement else handle)).lines depth =
      SourceLine.ofText depth handle := by
  rw [Fragment.lines]
  split
  · rename_i isBlank
    have null : Text.lines nullStatement.toList = [nullStatement.toList] :=
      Text.lines_last (by decide) (by decide)
    have solid : isBlankText nullStatement = false := by decide
    simp only [SourceLine.ofText, isBlank, solid, null, if_true]
    rfl
  · rfl

section Handler

variable {engine : Engine} {namespaces : List String} {routine : String}
  {actions : Table HostAction} {handle condition deny : String} {clauses : List ExceptionClause}
  {handled tested denied : List Statement} {caught : List (List Statement)}

theorem writes_guarding (visible : engine.actions namespaces = .ok actions)
    (handles : StandsFor engine namespaces routine handle handled)
    (catches : List.Forall₂ (fun clause list =>
      StandsFor engine namespaces routine clause.handler list) clauses caught) (depth : Nat) :
    let body := Fragment.literal (if isBlankText handle then nullStatement else handle)
    Writes actions ((if needsGuard clauses then .guarded body clauses else body).lines depth)
      (guarding clauses caught handled) := by
  intro body
  have writes (depth : Nat) : Writes actions (body.lines depth) handled := by
    rw [lines_handle]
    exact handles.writes visible depth
  have guards := needsGuard_iff clauses
  unfold guarding
  by_cases guarded : Guarded clauses
  · have some : clauses ≠ [] := by
      rintro rfl
      simp [Guarded] at guarded
    rw [if_pos (guards.2 guarded), if_pos guarded]
    exact writes_guarded (writes _) some
      (catches.imp fun _ _ stands => stands.writes visible (depth + 1))
  · rw [if_neg (mt guards.1 guarded), if_neg guarded]
    exact writes depth

/-- What is put around the configured texts of a handler writes the statements of its routine. -/
theorem writes_handlerFragment (entry : String) (visible : engine.actions namespaces = .ok actions)
    (handles : StandsFor engine namespaces routine handle handled)
    (tests : StandsFor engine namespaces routine condition tested)
    (denies : StandsFor engine namespaces routine deny denied)
    (catches : List.Forall₂ (fun clause list =>
      StandsFor engine namespaces routine clause.handler list) clauses caught) :
    ∃ body, handlerFragment entry handle condition deny clauses = .routine entry body ∧
      Writes actions (body.lines 1)
        (conditioning condition tested denied (guarding clauses caught handled)) := by
  refine ⟨_, rfl, ?_⟩
  unfold conditioning
  split
  · exact writes_guarding visible handles catches 1
  · exact writes_conditional (writes_guarding visible handles catches 2)
      (tests.writes visible 2) (denies.writes visible 2)

theorem calls_handler (handles : StandsFor engine namespaces routine handle handled)
    (tests : StandsFor engine namespaces routine condition tested)
    (denies : StandsFor engine namespaces routine deny denied)
    (catches : List.Forall₂ (fun clause list =>
      StandsFor engine namespaces routine clause.handler list) clauses caught) :
    ∀ name ∈ Statement.callsOfAll
      (conditioning condition tested denied (guarding clauses caught handled)), name = routine := by
  have inside : ∀ name ∈ Statement.callsOfAll (guarding clauses caught handled),
      name = routine := by
    intro name mem
    unfold guarding at mem
    split at mem
    · simp only [Statement.callsOfAll, Statement.calls, List.append_nil, List.mem_append] at mem
      exact mem.elim (handles.calls name) (calls_catching catches name)
    · exact handles.calls name mem
  intro name mem
  unfold conditioning at mem
  split at mem
  · exact inside name mem
  · simp only [Statement.callsOfAll, Statement.calls, List.append_nil, List.mem_append] at mem
    exact mem.elim (fun mem => mem.elim (tests.calls name) (inside name)) (denies.calls name)

/-- Compiling the source of a handler yields one routine, and in it the statements of the
configured texts in the control flow that belongs around them. -/
theorem assembleHandler_injects (known : ∀ space ∈ namespaces, engine.hasNamespace space)
    {entry : String} (lexed : (tokenize entry).map kinds = .ok [.word routine, .endOfSource])
    (handles : StandsFor engine namespaces routine handle handled)
    (tests : StandsFor engine namespaces routine condition tested)
    (denies : StandsFor engine namespaces routine deny denied)
    (catches : List.Forall₂ (fun clause list =>
      StandsFor engine namespaces routine clause.handler list) clauses caught) :
    engine.compile (assembleHandler entry handle condition deny clauses) namespaces =
      .ok {
        source := assembleHandler entry handle condition deny clauses
        namespaces
        blocks := Table.empty.insert routine
          (.block (conditioning condition tested denied (guarding clauses caught handled))) } := by
  obtain ⟨actions, visible⟩ := Engine.actions_ok_iff.2 known
  have lexed : Scans entry.toList [.word routine] := scans_of_tokenize lexed
  obtain ⟨body, eq, writes⟩ :=
    writes_handlerFragment entry visible handles tests denies catches
  obtain ⟨kinds, scans, defines⟩ := writes.routine lexed
  rw [← eq] at scans
  refine (Engine.compile_routines_iff scans rfl).2 ⟨rfl, rfl, actions, _, visible, defines, rfl, ?_⟩
  intro name s found called mem
  rw [Table.get?_insert, Table.get?_empty] at found
  split at found
  · rename_i same
    cases found
    rw [calls_handler handles tests denies catches called mem, Table.contains_insert]
    simp
  · cases found

end Handler

/-- A handler whose texts hold what could leak out of them: braces and comment signs in quotes,
comments with braces, quotes and keywords, one of them over several lines, and a last line that is
commented out. -/
theorem assembleHandler_injects_doorbell :
    ((Engine.core.register "home").compile
        (assembleHandler "ring"
          ("print \"a \x7d \\\" // b\" // \" \x7d else \x7b\r\n" ++
            "/* \x7b \"\n\n catch */ call ring  \n// end")
          "not /* \x7b\n * / */ &away" " \t" [⟨"io*", "print *oh // \x7d"⟩, ⟨"say \"no\"\n", ""⟩])
        ["home"]).map (·.blocks) =
      .ok (Table.empty.insert "ring" (.block [.choose
        (.deferred (.block [.negate (.deferred (.reference "away"))]))
        (.block [.attempt
          (.block [.print (.constant "a \x7d \" // b"), .call "ring"])
          [("io*", .block [.print (.constant "oh")]), ("say \"no\"\n", .block [.literal .null])]])
        (some (.block [.literal .null]))])) := by
  have handles : Injectable (Engine.core.register "home") ["home"] "ring"
      ("print \"a \x7d \\\" // b\" // \" \x7d else \x7b\r\n" ++
        "/* \x7b \"\n\n catch */ call ring  \n// end")
      [.print (.constant "a \x7d \" // b"), .call "ring"] := {
    closed := by decide +kernel
    unbroken := by decide +kernel
    statements := by with_unfolding_all rfl
    calls := by decide +kernel }
  have tests : Injectable (Engine.core.register "home") ["home"] "ring"
      "not /* \x7b\n * / */ &away" [.negate (.deferred (.reference "away"))] := {
    closed := by decide +kernel
    unbroken := by decide +kernel
    statements := by with_unfolding_all rfl
    calls := by decide +kernel }
  have catches : Injectable (Engine.core.register "home") ["home"] "ring"
      "print *oh // \x7d" [.print (.constant "oh")] := {
    closed := by decide +kernel
    unbroken := by decide +kernel
    statements := by with_unfolding_all rfl
    calls := by decide +kernel }
  have catching : List.Forall₂ (fun (clause : ExceptionClause) list =>
      StandsFor (Engine.core.register "home") ["home"] "ring" clause.handler list)
      [⟨"io*", "print *oh // \x7d"⟩, ⟨"say \"no\"\n", ""⟩]
      [[.print (.constant "oh")], [.literal .null]] :=
    .cons (.own (by decide) catches) (.cons (.null (by decide)) .nil)
  rw [assembleHandler_injects (by decide) (by decide +kernel) (.own (by decide) handles)
    (.own (by decide) tests) (.null (by decide)) catching]
  rfl

end ScriptHost
