import Mathlib.Data.List.Infix
import ScriptHost.Proofs.Assembly.Laying
import ScriptHost.Proofs.Script.Phrase
/-!
# Comments as blanks

Stripping takes a comment out and leaves nothing in its place but its line breaks. So the tokens
of a stripped source are those of the source without its comments, if no literal of it holds a
line break: blank lines and the blanks at the ends of lines belong to no token then. They are
also the tokens of the source with a blank in place of each comment, unless a comment without a
line break stands between two characters that join.

**Results.**
* `Comments.scans_tidy_iff`: tidying keeps the tokens of a text without broken literals.
* `Comments.scans_spaced_iff`: a blank in place of a comment changes no token if the comment holds
  nothing apart.
* `comments_separate`: the tokens of a stripped source.
-/
namespace ScriptHost

open Scanner

namespace Comments

/-! ## Tidy texts -/

/-- Tidying keeps the tokens of a text in which no line ends inside quotes. -/
theorem scans_tidy_iff {mode : Mode} (starts : mode.Starts) (text : List Char)
    (unbroken : Unbroken mode text) (ends : (after mode text).quotes = none)
    {kinds : List TokenKind} :
    Scans (tidy (erase mode text)) kinds ↔ Scans (erase mode text) kinds := by
  by_cases broken : '\n' ∈ text
  · obtain ⟨line, more, rfl, oneLine⟩ := List.eq_append_cons_of_mem broken
    obtain ⟨endsLine, unbroken⟩ := unbroken.line
    rw [(erase_line mode line more).2] at ends
    have closes : Closes (erase mode line) := closes_erase starts.quotes endsLine
    rw [(erase_line mode line more).1, scans_tidy_line (not_mem_erase oneLine) closes,
      scans_blank_iff closes (by decide)]
    have rest {kinds : List TokenKind} :=
      @scans_tidy_iff _ (Mode.starts_nextLine endsLine) more unbroken ends kinds
    simp only [rest]
  · exact scans_tidy_last (not_mem_erase broken) (closes_erase starts.quotes ends)
termination_by text.length

/-! ## Blanks in place of comments -/

/-- A text with a blank in place of each comment. -/
def spaced : Mode → List Char → List Char
  | _, [] => []
  | .code, '/' :: '/' :: rest => ' ' :: spaced .line rest
  | .code, '/' :: '*' :: rest => ' ' :: spaced (.block false) rest
  | .code, c :: rest => c :: spaced (if c = '"' then .quoted false else .code) rest
  | .quoted escaped, c :: rest => c :: spaced (insideQuotes escaped c) rest
  | .line, '\n' :: rest => '\n' :: spaced .code rest
  | .line, _ :: rest => spaced .line rest
  | .block closing, c :: rest => spaced (insideBlock closing c) rest

/-- The characters that come to stand side by side where a block comment is taken out, from a place
behind `before` on. If the comment leaves a line break, that is the first of the two. -/
def seams : Option Char → Mode → List Char → List (Option Char × Option Char)
  | _, _, [] => []
  | before, .code, '/' :: '/' :: rest => seams before .line rest
  | before, .code, '/' :: '*' :: rest => seams before (.block false) rest
  | _, .code, c :: rest => seams (some c) (if c = '"' then .quoted false else .code) rest
  | _, .quoted escaped, c :: rest => seams (some c) (insideQuotes escaped c) rest
  | _, .line, '\n' :: rest => seams (some '\n') .code rest
  | before, .line, _ :: rest => seams before .line rest
  | before, .block closing, c :: rest =>
    if c = '\n' then seams (some '\n') (.block false) rest
    else if insideBlock closing c = .code then
      (before, (erase .code rest).head?) :: seams before .code rest
    else seams before (insideBlock closing c) rest

/-- Whether no two characters join where a comment is taken out from between them. -/
def Loose (before : Option Char) (mode : Mode) (text : List Char) : Prop :=
  ∀ seam ∈ seams before mode text, ∀ c ∈ seam.1, ∀ d ∈ seam.2, joins c d = false

instance (before : Option Char) (mode : Mode) (text : List Char) :
    Decidable (Loose before mode text) :=
  decidable_of_iff (((seams before mode text).all fun seam =>
    seam.1.all fun c => seam.2.all fun d => !joins c d) = true) (by
      simp [Loose, Option.all_eq_true])

/-- The blank that stands for a comment that has started. -/
def Mode.blank : Mode → List Char
  | .line | .block _ => [' ']
  | _ => []

section Code

variable {c : Char} {rest : List Char} (noLine : ∀ others, c = '/' → rest = '/' :: others → False)
  (noBlock : ∀ others, c = '/' → rest = '*' :: others → False)

include noLine noBlock

theorem spaced_code : spaced .code (c :: rest) =
    c :: spaced (if c = '"' then .quoted false else .code) rest := by
  rw [spaced]
  · exact noLine
  · exact noBlock

theorem seams_code (before : Option Char) : seams before .code (c :: rest) =
    seams (some c) (if c = '"' then .quoted false else .code) rest := by
  rw [seams]
  · exact noLine
  · exact noBlock

end Code

/-- Where a character that is kept stands, and where the one behind it does. -/
structure Keeps (mode : Mode) (c : Char) (next : Mode) : Prop where
  quotes : next.quotes = quoteStep mode.quotes c
  blank : next.blank = []

theorem keeps_code (c : Char) : Keeps .code c (if c = '"' then .quoted false else .code) := by
  by_cases quote : c = '"' <;>
    exact ⟨by simp [quote, Mode.quotes, quoteStep], by simp [quote, Mode.blank]⟩

theorem keeps_quoted (escaped : Bool) (c : Char) :
    Keeps (.quoted escaped) c (insideQuotes escaped c) := by
  constructor
  · cases escaped <;> grind [insideQuotes, Mode.quotes, quoteStep]
  · cases escaped <;> grind [insideQuotes, Mode.blank]

theorem Keeps.scans_iff {mode next : Mode} {c : Char} (keeps : Keeps mode c next)
    {left rest : List Char} (opened : quoting none left = mode.quotes) {kinds : List TokenKind}
    (behind : quoting none (left ++ [c]) = next.quotes →
      (Scans ((left ++ [c]) ++ erase next rest) kinds ↔
        Scans ((left ++ [c]) ++ (next.blank ++ spaced next rest)) kinds)) :
    Scans (left ++ c :: erase next rest) kinds ↔ Scans (left ++ c :: spaced next rest) kinds := by
  have openedBehind : quoting none (left ++ [c]) = next.quotes := by
    rw [quoting_append, opened, keeps.quotes]
    rfl
  have behind := behind openedBehind
  rwa [keeps.blank, List.nil_append, ← List.append_cons, ← List.append_cons] at behind

/-- A blank in place of each comment changes no token, behind `left` on. -/
theorem scans_spaced_iff (mode : Mode) (text : List Char) {left : List Char} {before : Option Char}
    (last : ∀ c ∈ left.getLast?, before = some c) (opened : quoting none left = mode.quotes)
    (loose : Loose before mode text) {kinds : List TokenKind} :
    Scans (left ++ erase mode text) kinds ↔
      Scans (left ++ (mode.blank ++ spaced mode text)) kinds := by
  have space : Text.allBlank [' '] := by decide
  fun_induction erase mode text generalizing left before kinds with
  | case1 mode =>
    cases mode with
    | code | quoted => rfl
    | line | block =>
      rw [List.append_nil]
      exact (scans_append_blanks opened space).symm
  | case2 rest ih | case3 rest ih => exact ih last opened loose
  | case4 c rest noLine noBlock ih =>
    rw [Loose, seams_code noLine noBlock] at loose
    rw [spaced_code noLine noBlock]
    exact (keeps_code c).scans_iff opened fun opened => ih (by simp) opened loose
  | case5 escaped c rest ih =>
    rw [Loose, seams] at loose
    rw [spaced]
    exact (keeps_quoted escaped c).scans_iff opened fun opened => ih (by simp) opened loose
  | case6 rest ih =>
    rw [Loose, seams] at loose
    have behind {kinds : List TokenKind} :
        Scans (erase .code rest) kinds ↔ Scans (spaced .code rest) kinds :=
      @ih [] (some '\n') (by simp) rfl loose kinds
    have eq : Mode.line.blank ++ spaced .line ('\n' :: rest) =
        [' ', '\n'] ++ spaced .code rest := rfl
    rw [eq, scans_blank_iff opened (by decide), scans_between_iff opened (by decide) (by simp)]
    simp only [behind]
  | case7 c rest other ih =>
    rw [Loose, seams] at loose
    · rw [spaced]
      · exact ih last opened loose
      · exact other
    · exact other
  | case8 closing rest ih =>
    rw [Loose, seams, if_pos rfl] at loose
    have stays : insideBlock closing '\n' = .block false := by simp [insideBlock]
    have opened' : quoting none (left ++ ['\n']) = none := by
      rw [quoting_append, opened]
      rfl
    have behind := @ih (left ++ ['\n']) (some '\n') (by simp) opened' loose kinds
    have eq : left ++ ['\n'] ++ ((Mode.block false).blank ++ spaced (.block false) rest) =
        left ++ (['\n', ' '] ++ spaced (.block false) rest) := by
      simp [Mode.blank]
    rw [List.append_cons]
    refine behind.trans ?_
    rw [eq, spaced, stays, Mode.blank, scans_between_iff opened (by decide) (by simp),
      scans_between_iff opened space (by simp)]
  | case9 closing c rest other ih =>
    rw [Loose, seams, if_neg other] at loose
    rw [spaced]
    by_cases place : insideBlock closing c = .code
    · rw [if_pos place] at loose
      rw [place] at ih ⊢
      obtain ⟨seam, loose⟩ := List.forall_mem_cons.1 loose
      have behind {kinds : List TokenKind} := @ih [] before (by simp) rfl loose kinds
      have unjoined : Unjoined left (erase .code rest) := fun c mem => seam c (last c mem)
      rw [scans_unjoined_iff opened unjoined, Mode.blank, scans_between_iff opened space (by simp)]
      simp only [List.nil_append, Mode.blank] at behind
      simp only [behind]
    · rw [if_neg place] at loose
      have inside : insideBlock closing c = .block (c = '*') := by
        unfold insideBlock at place ⊢
        split
        · simp_all
        · rfl
      rw [inside] at ih loose ⊢
      exact ih last opened loose

end Comments

open Comments

/-! ## Sources -/

/-- A source without its comments. Of a block comment its line breaks are left. -/
def withoutComments (source : String) : String := String.ofList (erase .code source.toList)

/-- A source with a blank in place of each comment. -/
def withBlanks (source : String) : String := String.ofList (spaced .code source.toList)

/-- Whether no string literal of a source holds a line break. What follows a quote that is never
closed is no literal. -/
def LiteralsOnLines (source : String) : Prop :=
  (after .code source.toList).quotes = none → Unbroken .code source.toList

instance (source : String) : Decidable (LiteralsOnLines source) :=
  inferInstanceAs (Decidable (_ → _))

/-- Whether no block comment without a line break stands, other comments apart, directly between
two characters that can belong to one token. -/
def CommentsBetweenTokens (source : String) : Prop := Loose none .code source.toList

instance (source : String) : Decidable (CommentsBetweenTokens source) :=
  inferInstanceAs (Decidable (Loose none .code source.toList))

/-- The kinds of the tokens of a source, if it is made of tokens. -/
def kindsOf (source : String) : Option (List TokenKind) :=
  (tokenize source).toOption.map Grammar.kinds

theorem kindsOf_eq {source other : String}
    (h : ∀ front, Scans source.toList front ↔ Scans other.toList front) :
    kindsOf source = kindsOf other := by
  have told (source : String) (all : List TokenKind) : kindsOf source = some all ↔
      ∃ front, all = front ++ [.endOfSource] ∧ Scans source.toList front := by
    rw [← @all_ok_iff _ ⟨1, 1⟩]
    simp only [kindsOf, Option.map_eq_some_iff, toOption_eq_some]
    rfl
  refine Option.ext fun all => ?_
  simp only [told, h]

section Sources

variable {source : String}

theorem kindsOf_stripComments (onLines : LiteralsOnLines source) :
    kindsOf (stripComments source) = kindsOf (withoutComments source) := by
  refine kindsOf_eq fun front => ?_
  rw [stripComments_eq, withoutComments, String.toList_ofList, String.toList_ofList]
  by_cases ends : (after .code source.toList).quotes = none
  · exact scans_tidy_iff (.inl rfl) _ (onLines ends) ends
  · -- Quotes that are left open stay open when the text is tidied.
    have notClosed : ¬ Closes (erase .code source.toList) := by
      unfold Closes
      rw [show none = Mode.code.quotes from rfl, quoting_erase]
      exact ends
    exact ⟨fun scans => absurd ((closes_tidy _).1 scans.closes) notClosed,
      fun scans => absurd scans.closes notClosed⟩

theorem kindsOf_withBlanks (between : CommentsBetweenTokens source) :
    kindsOf (withoutComments source) = kindsOf (withBlanks source) := by
  refine kindsOf_eq fun front => ?_
  rw [withoutComments, withBlanks, String.toList_ofList, String.toList_ofList]
  exact @scans_spaced_iff .code source.toList [] none (by simp) rfl between front

/-- The tokens of a stripped source whose literals hold no line breaks are those of the source
without its comments, and if these stand between tokens only, those of the source with a blank in
place of each. -/
theorem comments_separate (onLines : LiteralsOnLines source) :
    kindsOf (stripComments source) = kindsOf (withoutComments source) ∧
      (CommentsBetweenTokens source →
        kindsOf (stripComments source) = kindsOf (withBlanks source)) := by
  have stripped := kindsOf_stripComments onLines
  exact ⟨stripped, fun between => stripped.trans (kindsOf_withBlanks between)⟩

end Sources

/-- Comments beside words, quotes and stars, quotes and signs of comments inside them, and such
signs in a literal. -/
theorem comments_separate_doorbell :
    LiteralsOnLines "print/* \" */\"a // /*\"// *\ncall/*\n*/ring /* // */ *b/**//* \" */\"c\"" ∧
    CommentsBetweenTokens
      "print/* \" */\"a // /*\"// *\ncall/*\n*/ring /* // */ *b/**//* \" */\"c\"" ∧
    kindsOf (stripComments
        "print/* \" */\"a // /*\"// *\ncall/*\n*/ring /* // */ *b/**//* \" */\"c\"") =
      kindsOf (withBlanks
        "print/* \" */\"a // /*\"// *\ncall/*\n*/ring /* // */ *b/**//* \" */\"c\"") :=
  have onLines : LiteralsOnLines
      "print/* \" */\"a // /*\"// *\ncall/*\n*/ring /* // */ *b/**//* \" */\"c\"" := by
    decide +kernel
  have between : CommentsBetweenTokens
      "print/* \" */\"a // /*\"// *\ncall/*\n*/ring /* // */ *b/**//* \" */\"c\"" := by
    decide +kernel
  ⟨onLines, between, (comments_separate onLines).2 between⟩

/-- A comment between two digits leaves one number, where a blank leaves two. -/
theorem comment_joins_digits : LiteralsOnLines "print 1/**/2" ∧
    kindsOf (stripComments "print 1/**/2") ≠ kindsOf (withBlanks "print 1/**/2") := by
  decide +kernel

end ScriptHost
