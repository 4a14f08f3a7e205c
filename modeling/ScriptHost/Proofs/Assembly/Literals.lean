import Mathlib.Data.List.Infix
import ScriptHost.Proofs.Assembly.Injecting
import ScriptHost.Proofs.Assembly.Laying
/-!
# Literals in assembled sources

Assembling writes configured texts line by line and takes comments out of the whole. A text that
is read by itself keeps its tokens, whatever its quoted texts hold, except for the quoted texts
that hold a line break: writing does not know that such a line ends inside quotes. What stands
between their quotes is laid like everything else, and then means what it means (`Laid`).

`Fragment.Lays` puts the tokens of the texts together as the control flow around them does.

**Results.**
* `Comments.erase_made`: a text that is read by itself holds no comment.
* `Scanner.Made.laid`: the tokens of a text that is laid.
* `Fragment.lays`: the tokens of the source of a tree of fragments.
* `literals_in_source`: the tokens of the sources of handlers and schedules.
-/
namespace ScriptHost

open Comments Scanner Grammar

/-! ## Comments -/

theorem Comments.erase_quoted {body more : List Char} {escaped : Bool}
    (h : (unquote escaped body).isSome) :
    erase (.quoted escaped) (body ++ '"' :: more) = body ++ '"' :: erase .code more := by
  induction body generalizing escaped with
  | nil =>
    cases escaped with
    | true => cases h
    | false => simp [erase, insideQuotes]
  | cons c rest ih =>
    obtain ⟨next, step, h⟩ := unquote_cons.1 h
    have inside : insideQuotes escaped c = .quoted next := by
      cases escaped <;> grind [insideQuotes, quoteStep]
    rw [List.cons_append, erase, inside, ih h, List.cons_append]

/-- No comment starts in a lexeme. -/
theorem Comments.erase_lexeme {kind : TokenKind} {lexeme : List Char} {grows : Char → Bool}
    (spelt : Spelt kind lexeme grows) (more : List Char) :
    erase .code (lexeme ++ more) = lexeme ++ erase .code more := by
  rcases spelt.quoted_or_plain with ⟨mark, body, inside, marked, made, -, rfl, -⟩ | plain
  · have front : '/' ∉ mark ∧ '"' ∉ mark := by
      rcases marked with rfl | rfl <;> simp
    rw [List.append_assoc, erase_plain front, List.cons_append, List.append_assoc,
      List.singleton_append, erase, if_pos rfl, erase_quoted (by rw [made]; rfl)]
    · simp
    all_goals simp
  · exact erase_plain ⟨fun mem => (plain _ mem).2.1 rfl, fun mem => (plain _ mem).2.2 rfl⟩ more

theorem Comments.erase_made {text : List Char} {tokens : List (TokenKind × List Char)}
    (made : Made text tokens) (more : List Char) :
    erase .code (text ++ more) = text ++ erase .code more := by
  have blank {blanks : List Char} (isBlank : Text.allBlank blanks) :
      '/' ∉ blanks ∧ '"' ∉ blanks := by
    have sign {c : Char} (mem : c ∈ blanks) := not_isBlank_sign (List.all_eq_true.1 isBlank c mem)
    exact ⟨fun mem => (sign mem).1 rfl, fun mem => (sign mem).2.2 rfl⟩
  induction made with
  | done isBlank => exact erase_plain (blank isBlank) more
  | more isBlank spelt stop _ ih =>
    rw [List.append_assoc, erase_plain (blank isBlank), List.append_assoc, erase_lexeme spelt, ih,
      List.append_assoc, List.append_assoc]

/-! ## Laid tokens -/

/-- What becomes of a token where the text that it stands in is laid: the same, unless it is a
quoted text that holds a line break. Of that it is what stands between the quotes then. -/
inductive Laid (depth : Nat) : TokenKind × List Char → TokenKind → Prop
  | whole {kind lexeme} : '\n' ∉ lexeme → Laid depth (kind, lexeme) kind
  | broken {mark body inside body' inside'} : '\n' ∈ body → unquote false body = some inside →
    laid depth false [] (body ++ ['"']) = body' ++ ['"'] → unquote false body' = some inside' →
    Laid depth (.text (String.ofList inside), mark ++ '"' :: (body ++ ['"']))
      (.text (String.ofList inside'))

/-- A lexeme is laid by itself, as a lexeme. -/
theorem Scanner.Spelt.laid {kind : TokenKind} {lexeme : List Char} {grows : Char → Bool}
    (spelt : Spelt kind lexeme grows) (depth : Nat) :
    ∃ kind' lexeme', Laid depth (kind, lexeme) kind' ∧ Spelt kind' lexeme' grows ∧
      ∀ rest, ScriptHost.laid depth false [] (lexeme ++ rest) =
        lexeme' ++ ScriptHost.laid depth false [] rest := by
  obtain ⟨front, c, eq, solid⟩ := spelt.last
  have apart (rest : List Char) : ScriptHost.laid depth false [] (lexeme ++ rest) =
      ScriptHost.laid depth false [] lexeme ++ ScriptHost.laid depth false [] rest := by
    rw [eq, List.append_assoc, List.singleton_append, laid_append solid]
  by_cases oneLine : '\n' ∈ lexeme
  · rcases spelt.quoted_or_plain with ⟨mark, body, inside, marked, made, rfl, rfl, rfl⟩ | plain
    · have markLine : '\n' ∉ mark := by
        rcases marked with rfl | rfl <;> simp
      have broken : '\n' ∈ body := by simpa [markLine] using oneLine
      obtain ⟨body', eq'⟩ := @laid_concat depth false [] '"' (by decide) body
      obtain ⟨inside', made'⟩ := Option.isSome_iff_exists.1
        (@unquote_laid depth false [] rfl body body' eq' false (by rw [gap]; simp [made]))
      refine ⟨_, mark ++ '"' :: (body' ++ ['"']), .broken broken made eq' made',
        .quoted marked made', fun rest => ?_⟩
      rw [apart, laid_append (by decide), laid_oneLine (by decide) markLine, eq']
      simp
    · exact absurd (plain _ oneLine).1 (by decide)
  · refine ⟨kind, lexeme, .whole oneLine, spelt, fun rest => ?_⟩
    rw [apart]
    congr 1
    rw [eq] at oneLine ⊢
    exact laid_oneLine solid fun mem => oneLine (List.mem_append_left _ mem)

theorem Scanner.Made.laid {text : List Char} {tokens : List (TokenKind × List Char)}
    (made : Made text tokens) (depth : Nat) :
    ∃ kinds, List.Forall₂ (Laid depth) tokens kinds ∧
      ∀ broken blanks, Text.allBlank blanks →
        Scans (ScriptHost.laid depth broken blanks text) kinds := by
  induction made with
  | done isBlank =>
    refine ⟨[], .nil, fun broken blanks _ => .done ?_⟩
    rw [laid_allBlank isBlank]
    rfl
  | @more before kind lexeme grows rest tokens isBlank spelt stop made ih =>
    obtain ⟨kinds, all, scans⟩ := ih
    obtain ⟨kind', lexeme', becomes, spelt', apart⟩ := spelt.laid depth
    refine ⟨kind' :: kinds, .cons becomes all, fun broken blanks isBlank' => ?_⟩
    obtain ⟨c, others, eq, solid⟩ := spelt.head
    obtain ⟨space, spaceBlank, whole⟩ :=
      @laid_blanks depth broken blanks isBlank' before isBlank c solid (others ++ rest)
    rw [← List.cons_append, ← eq, apart] at whole
    rw [whole]
    refine .more ((spelt'.isLexeme fun d mem => ?_).blank spaceBlank) (scans false [] rfl)
    rcases head_laid rest d mem with first | isBlank
    · exact stop d first
    · exact spelt.grows_blank isBlank

/-! ## Generated lines -/

theorem SourceLine.source_whole (lines : List SourceLine) : WholeLines (source lines) := by
  induction lines with
  | nil => exact .inl rfl
  | cons line rest ih =>
    refine .inr ?_
    have first : source (line :: rest) = line.chars ++ '\n' :: source rest := by
      simp [source, toList_written]
    rw [first, List.getLast?_append, List.getLast?_cons]
    rcases ih with none | ends
    · rw [none]
      rfl
    · rw [ends]
      rfl

theorem Comments.adds_made {text : List Char} {tokens : List (TokenKind × List Char)}
    (made : Made text tokens) (depth : Nat) :
    ∃ kinds, List.Forall₂ (Laid depth) tokens kinds ∧ Adds .code (kept depth text) kinds .code := by
  obtain ⟨kinds, becomes, scans⟩ := made.laid depth
  refine ⟨kinds, becomes, fun more others scansMore => ?_⟩
  have scans : Scans (SourceLine.source (kept depth text)) kinds := by
    have lineFeed : Text.allBlank ['\n'] := by decide
    have scans := scans true [] rfl
    rw [← scans_blanks_iff lineFeed, List.singleton_append, source_kept]
    exact (scans_append_blanks scans.closes lineFeed).2 scans
  obtain ⟨written, made, -⟩ := scans_iff_made.1 scans
  rw [erase_made made, tidy_source_kept]
  exact scans.append scansMore (SourceLine.source_whole _)

/-! ## Configured texts -/

/-- Whether a text can be read by itself. -/
def Lexes (text : String) : Prop := ∃ tokens, tokenize text = .ok tokens

instance (text : String) : Decidable (Lexes text) :=
  decidable_of_iff ((tokenize text).toOption.isSome = true) (by
    simp [Lexes, Option.isSome_iff_exists, toOption_eq_some])

/-- A text that fits into a source: it is read by itself, or it is read once its comments are
taken out, and closes the block comments that it opens, and no quoted text of it holds a line
break. -/
def Fits (text : String) : Prop :=
  Lexes text ∨ (∀ closing, after .code text.toList ≠ .block closing) ∧
    Unbroken .code text.toList ∧ Lexes (stripComments text)

instance (text : String) : Decidable (Fits text) := inferInstanceAs (Decidable (_ ∨ _))

/-- The tokens that stand in a source for a text at this depth: those that it has by itself as
they are laid, or if it cannot be read by itself those that it has without its comments. -/
inductive StandsAs (depth : Nat) (text : String) : List TokenKind → Prop
  | null : isBlankText text → StandsAs depth text [.word "null"]
  | own {tokens kinds} : isBlankText text = false → Made text.toList tokens →
    List.Forall₂ (Laid depth) tokens kinds → StandsAs depth text kinds
  | commented {kinds} : ¬ Lexes text → Scans (stripComments text).toList kinds →
    StandsAs depth text kinds

theorem scans_of_lexes {text : String} (h : Lexes text) : ∃ kinds, Scans text.toList kinds := by
  obtain ⟨tokens, made⟩ := h
  obtain ⟨front, -, scans⟩ := all_sound made
  exact ⟨front, scans⟩

theorem Fits.stands {text : String} (fits : Fits text) (depth : Nat) :
    ∃ kinds, StandsAs depth text kinds ∧ Adds .code (SourceLine.ofText depth text) kinds .code := by
  by_cases isBlank : isBlankText text
  · refine ⟨_, .null isBlank, ?_⟩
    rw [SourceLine.ofText, if_pos isBlank]
    exact adds_control depth (by simp [controlPieces])
  · have notBlank : isBlankText text = false := by simpa using isBlank
    rw [SourceLine.ofText_kept depth notBlank]
    by_cases lexes : Lexes text
    · obtain ⟨front, scans⟩ := scans_of_lexes lexes
      obtain ⟨tokens, made, -⟩ := scans_iff_made.1 scans
      obtain ⟨kinds, becomes, adds⟩ := adds_made made depth
      exact ⟨kinds, .own notBlank made becomes, adds⟩
    · obtain ⟨closed, unbroken, stripped⟩ := fits.resolve_left lexes
      obtain ⟨kinds, scans⟩ := scans_of_lexes stripped
      exact ⟨kinds, .commented lexes scans, adds_stripped depth closed unbroken scans⟩

/-! ## Control flow -/

/-- The tokens of the clauses of a guard, from the brace that closes its body on. -/
def catchTokens : List (ExceptionClause × List TokenKind) → List TokenKind
  | [] => [.closeBrace]
  | (clause, kinds) :: rest =>
    [.closeBrace, .word "catch", .word "with", .text clause.matcher, .openBrace] ++
      (kinds ++ catchTokens rest)

namespace Fragment

/-- The tokens of a fragment at this depth. -/
inductive Lays : Nat → Fragment → List TokenKind → Prop
  | literal {depth text kinds} : StandsAs depth text kinds → Lays depth (.literal text) kinds
  | guarded {depth body inside clauses caught} : Lays (depth + 1) body inside →
    List.Forall₂ (fun clause kinds => StandsAs (depth + 1) clause.handler kinds) clauses caught →
    Lays depth (.guarded body clauses)
      ([.word "try", .openBrace] ++ (inside ++ catchTokens (clauses.zip caught)))
  | conditional {depth condition test body inside deny refusal} :
    StandsAs (depth + 1) condition test → Lays (depth + 1) body inside →
    StandsAs (depth + 1) deny refusal →
    Lays depth (.conditional condition body deny)
      ([.word "if", .openBrace] ++ (test ++ ([.closeBrace, .word "then", .openBrace] ++ (inside ++
        ([.closeBrace, .word "else", .openBrace] ++ (refusal ++ [.closeBrace]))))))
  | routine {depth entry name body inside} : Scans entry.toList [.word name] →
    Lays (depth + 1) body inside →
    Lays depth (.routine entry body)
      ([.word "def", .word name, .equals, .openBrace] ++ (inside ++ [.closeBrace]))

/-- The configured texts of a fragment. -/
def texts : Fragment → List String
  | literal text => [text]
  | guarded body clauses => body.texts ++ clauses.map (·.handler)
  | conditional condition body deny => condition :: deny :: body.texts
  | routine _ body => body.texts

/-- The names of the routines of a fragment. -/
def entries : Fragment → List String
  | literal _ => []
  | guarded body _ | conditional _ body _ => body.entries
  | routine entry body => entry :: body.entries

theorem adds_clauses {depth : Nat} {clauses : List ExceptionClause}
    (fits : ∀ clause ∈ clauses, Fits clause.handler) :
    ∃ caught, List.Forall₂ (fun clause kinds => StandsAs (depth + 1) clause.handler kinds) clauses
        caught ∧
      Adds .code ((clauses.flatMap fun clause => ⟨depth, catchLine clause.matcher⟩ ::
        SourceLine.ofText (depth + 1) clause.handler) ++ [⟨depth, "\x7d"⟩])
          (catchTokens (clauses.zip caught)) .code := by
  induction clauses with
  | nil => exact ⟨[], .nil, adds_close depth⟩
  | cons clause rest ih =>
    obtain ⟨kinds, stands, adds⟩ := (fits clause (.head _)).stands (depth + 1)
    obtain ⟨caught, all, addsRest⟩ := ih fun clause mem => fits clause (.tail _ mem)
    refine ⟨kinds :: caught, .cons stands all, ?_⟩
    have whole := (adds_catchLine depth clause.matcher).append (adds.append addsRest)
    simpa [catchTokens] using whole

/-- A fragment whose texts fit into its source adds their tokens to it, in the control flow that
belongs around them. -/
theorem lays (fragment : Fragment) (fits : ∀ text ∈ fragment.texts, Fits text)
    (named : ∀ entry ∈ fragment.entries, ∃ name, Scans entry.toList [.word name]) (depth : Nat) :
    ∃ kinds, Lays depth fragment kinds ∧ Adds .code (fragment.lines depth) kinds .code := by
  induction fragment generalizing depth with
  | literal text =>
    obtain ⟨kinds, stands, adds⟩ := (fits text (.head _)).stands depth
    exact ⟨kinds, .literal stands, adds⟩
  | guarded body clauses ih =>
    simp only [texts, List.mem_append, List.mem_map] at fits
    obtain ⟨inside, lays, adds⟩ := ih (fun text mem => fits text (.inl mem)) named (depth + 1)
    obtain ⟨caught, stands, addsClauses⟩ :=
      @adds_clauses depth clauses fun clause mem => fits _ (.inr ⟨clause, mem, rfl⟩)
    refine ⟨_, .guarded lays stands, ?_⟩
    have whole := (adds_try depth).append (adds.append addsClauses)
    simpa [lines, catchLine] using whole
  | conditional condition body deny ih =>
    simp only [texts, List.mem_cons] at fits
    obtain ⟨test, stands, addsTest⟩ := (fits condition (.inl rfl)).stands (depth + 1)
    obtain ⟨refusal, stands', addsRefusal⟩ := (fits deny (.inr (.inl rfl))).stands (depth + 1)
    obtain ⟨inside, lays, adds⟩ :=
      ih (fun text mem => fits text (.inr (.inr mem))) named (depth + 1)
    exact ⟨_, .conditional stands lays stands', adds_conditional depth addsTest adds addsRefusal⟩
  | routine entry body ih =>
    obtain ⟨name, lexed⟩ := named entry (.head _)
    obtain ⟨inside, lays, adds⟩ := ih fits (fun entry mem => named entry (.tail _ mem)) (depth + 1)
    have whole := (adds_opening lexed depth).append (adds.append (adds_close depth))
    exact ⟨_, .routine lexed lays, whole⟩

theorem tokens_lays (fragment : Fragment) (fits : ∀ text ∈ fragment.texts, Fits text)
    (named : ∀ entry ∈ fragment.entries, ∃ name, Scans entry.toList [.word name]) :
    ∃ front, (tokenize (stripComments fragment.render)).map kinds = .ok (front ++ [.endOfSource]) ∧
      Lays 0 fragment front := by
  obtain ⟨front, lays, adds⟩ := fragment.lays fits named 0
  have nothing : Scans (tidy (erase .code [])) [] := .done (by simp [erase, Text.allBlank])
  have whole := adds [] [] nothing
  rw [List.append_nil, List.append_nil, ← toList_render] at whole
  refine ⟨front, ?_, lays⟩
  have scans : Scans (stripComments fragment.render).toList front := by
    rwa [stripComments_eq, String.toList_ofList]
  obtain ⟨tokens, made, eq⟩ := scans.all ⟨1, 1⟩
  exact map_eq_ok.2 ⟨tokens, made, eq⟩

end Fragment

section Sources

variable {entry name : String} {handle condition deny execute : String}
  {clauses : List ExceptionClause}

/-- The tokens of the source of a handler's routine and of that of a schedule. Those of a
configured text that is read by itself are its own, except for quoted texts that hold a line
break, which are laid like the text around them. -/
theorem literals_in_source (lexed : (tokenize entry).map kinds = .ok [.word name, .endOfSource]) :
    ((∀ text ∈ (handlerFragment entry handle condition deny clauses).texts, Fits text) →
      ∃ front, (tokenize (assembleHandler entry handle condition deny clauses)).map kinds =
          .ok (front ++ [.endOfSource]) ∧
        (handlerFragment entry handle condition deny clauses).Lays 0 front) ∧
    (Fits execute →
      ∃ front, (tokenize (assembleRoutine entry execute)).map kinds =
          .ok (front ++ [.endOfSource]) ∧
        (Fragment.routine entry (.literal execute)).Lays 0 front) := by
  have named : ∃ name, Scans entry.toList [.word name] := ⟨name, scans_of_tokenize lexed⟩
  constructor
  · intro fits
    have only : (handlerFragment entry handle condition deny clauses).entries = [entry] := by
      unfold handlerFragment
      cases isBlankText condition <;> cases needsGuard clauses <;> rfl
    refine Fragment.tokens_lays _ fits fun other mem => ?_
    rw [only, List.mem_singleton] at mem
    rwa [mem]
  · intro fits
    refine Fragment.tokens_lays (.routine entry (.literal execute)) (fun text mem => ?_)
      fun other mem => ?_
    · rwa [List.mem_singleton.1 mem]
    · rwa [List.mem_singleton.1 mem]

end Sources

/-- A handler with a literal that looks like a comment, a condition with a comment beside it and a
caught error whose handler prints a line break, and a schedule with a literal over three lines. -/
theorem literals_in_source_doorbell :
    (tokenize "ring").map kinds = .ok [.word "ring", .endOfSource] ∧
    (∀ text ∈ (handlerFragment "ring" "print \"// a /*\" *b" "not &away // c" " "
      [⟨"io*", "print \"\n\""⟩]).texts, Fits text) ∧
    Fits "print \"a  \n\n b\"" ∧
    (∃ front, (tokenize (assembleHandler "ring" "print \"// a /*\" *b" "not &away // c" " "
        [⟨"io*", "print \"\n\""⟩])).map kinds = .ok (front ++ [.endOfSource]) ∧
      (handlerFragment "ring" "print \"// a /*\" *b" "not &away // c" " "
        [⟨"io*", "print \"\n\""⟩]).Lays 0 front) ∧
    ∃ front, (tokenize (assembleRoutine "ring" "print \"a  \n\n b\"")).map kinds =
        .ok (front ++ [.endOfSource]) ∧
      (Fragment.routine "ring" (.literal "print \"a  \n\n b\"")).Lays 0 front :=
  have lexed : (tokenize "ring").map kinds = .ok [.word "ring", .endOfSource] := by decide +kernel
  have fits : ∀ text ∈ (handlerFragment "ring" "print \"// a /*\" *b" "not &away // c" " "
      [⟨"io*", "print \"\n\""⟩]).texts, Fits text := by
    decide +kernel
  have fits' : Fits "print \"a  \n\n b\"" := by decide +kernel
  ⟨lexed, fits, fits', (literals_in_source lexed).imp (fun h => h fits) fun h => h fits'⟩

/-- A literal that spans lines does not have the value in its routine that it has by itself: the
blanks at the end of its first line and its blank line are gone, and its last line is indented. -/
theorem literal_over_lines_is_laid :
    (tokenize "print \"a  \n\nb\"").map kinds =
        .ok [.word "print", .text "a  \n\nb", .endOfSource] ∧
      (tokenize (assembleRoutine "main" "print \"a  \n\nb\"")).map kinds =
        .ok [.word "def", .word "main", .equals, .openBrace, .word "print", .text "a\n    b",
          .closeBrace, .endOfSource] := by
  decide +kernel

end ScriptHost
