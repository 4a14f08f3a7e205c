import Mathlib.Data.List.DropRight
import ScriptHost.Proofs.Script.Lexemes
/-!
# The places of tokens

A text falls into pieces, each of them blanks and a lexeme behind them. Where the pieces end, either
only blanks are left or no token can be completed. Scanning finds exactly these pieces, and nothing
of the text is outside of them.

The cursor counts lines and columns one character at a time. `Position.behind` tells the place
behind a text from the text itself, and that is where the cursor is.

**Results.**
* `Cursor.walk_start`: the place that is counted is the place behind what was taken.
* `Scanner.next_made`, `Scanner.next_ended`, `Scanner.next_refused`: what one step takes, what is
  left at the end, and where no token can be completed.
* `tokens_are_in_place`: the pieces of a source, with the places of their tokens.
-/
namespace ScriptHost

/-- The place right behind a text: a line feed ends a line, and every other character is one column
of its line. -/
def Position.behind (text : List Char) : Position :=
  ⟨text.count '\n' + 1, (text.rtakeWhile (· != '\n')).length + 1⟩

namespace Cursor

theorem walk_append (place : Position) (first second : List Char) :
    walk place (first ++ second) = walk (walk place first) second := List.foldl_append

theorem walk_start (text : List Char) : walk ⟨1, 1⟩ text = .behind text := by
  induction text using List.reverseRecOn with
  | nil => rfl
  | append_singleton front c ih =>
    rw [walk_append, ih, Position.behind, Position.behind, List.rtakeWhile_concat,
      List.count_append]
    by_cases feed : c = '\n'
    · simp [walk, step, feed]
    · simp [walk, step, feed]

/-- The cursor `behind` is where `at_` comes to by taking some characters. -/
structure Takes (at_ : Cursor) (taken : List Char) (behind : Cursor) : Prop where
  text : at_.rest = taken ++ behind.rest
  place : behind.place = walk at_.place taken

theorem Takes.first {c : Char} {taken rest : List Char} {place : Position} {behind : Cursor}
    (h : Takes ⟨rest, step place c⟩ taken behind) : Takes ⟨c :: rest, place⟩ (c :: taken) behind :=
  ⟨congrArg (c :: ·) h.text, h.place⟩

theorem takes_span (p : Char → Bool) (at_ : Cursor) :
    Takes at_ (at_.span p).1 (at_.span p).2 :=
  ⟨List.takeWhile_append_dropWhile.symm, rfl⟩

end Cursor

namespace Scanner

open Cursor

/-! ## One step -/

theorem quoted?_takes {kept text : List Char} {place : Position} {content : String}
    {behind : Cursor} (h : quoted? kept place text = some (content, behind)) :
    ∃ taken, Takes ⟨text, place⟩ taken behind := by
  fun_induction quoted? kept place text with
  | case1 | case4 => cases h
  | case2 =>
    cases h
    exact ⟨['"'], rfl, rfl⟩
  | case3 kept place c rest meant ih =>
    obtain ⟨taken, takes⟩ := ih h
    exact ⟨_, takes.first.first⟩
  | case5 kept place c rest _ _ _ ih =>
    obtain ⟨taken, takes⟩ := ih h
    exact ⟨_, takes.first⟩

theorem quotedToken_takes {place : Position} {opening behind : Cursor} {kind : TokenKind}
    (h : quotedToken place opening = .ok (kind, behind)) : ∃ taken, Takes opening taken behind := by
  unfold quotedToken at h
  split at h
  · rename_i found
    cases h
    exact quoted?_takes found
  · cases h

/-- A token moves the cursor on over what it takes. -/
theorem token_takes {place : Position} {c : Char} {after behind : Cursor} {kind : TokenKind}
    (h : token place c after = .ok (kind, behind)) : ∃ taken, Takes after taken behind := by
  have nothing : Takes after [] after := ⟨rfl, rfl⟩
  have words := takes_span isWordChar after
  have digits := takes_span (fun d => d.isDigit || d == '.') after
  simp only [token] at h
  split at h
  · cases h; exact ⟨_, nothing⟩
  split at h
  · cases h; exact ⟨_, nothing⟩
  split at h
  · cases h; exact ⟨_, nothing⟩
  split at h
  · exact quotedToken_takes h
  split at h
  · split at h
    · rename_i rest opened
      obtain ⟨taken, takes⟩ := quotedToken_takes h
      obtain ⟨text, place⟩ := after
      cases opened
      exact ⟨_, takes.first⟩
    · split at h
      · cases h
      · cases h; exact ⟨_, words⟩
  split at h
  · split at h
    · cases h
    · cases h; exact ⟨_, words⟩
  split at h
  · split at h
    · rename_i first more rest named closed
      cases h
      refine ⟨(after.span isWordChar).1 ++ ['>'], ?_, ?_⟩
      · rw [words.text, closed, List.append_assoc]
        rfl
      · rw [walk_append, ← words.place]
        rfl
    · cases h
  split at h
  · split at h
    · cases h; exact ⟨_, digits⟩
    · cases h
  split at h
  · cases h; exact ⟨_, words⟩
  · cases h

theorem token_refused {place : Position} {c : Char} {after : Cursor} {error : CompileError}
    (h : token place c after = .error error) : ∃ message, error = .malformed place message := by
  simp only [token, quotedToken, refuse] at h
  grind

/-- No token starts here: whatever lexeme the text starts with, the character behind it goes on with
it. -/
def NoToken (text : List Char) : Prop :=
  ∀ kind lexeme grows rest, text = lexeme ++ rest → Spelt kind lexeme grows →
    ∃ d ∈ rest.head?, grows d

/-- A step that makes a token takes blanks and the lexeme of the token, which starts behind the
blanks. -/
theorem next_made {at_ behind : Cursor} {made : Token} (h : next at_ = .ok (made, behind))
    (more : made.kind ≠ .endOfSource) :
    ∃ blanks lexeme grows, at_.rest = blanks ++ (lexeme ++ behind.rest) ∧ Text.allBlank blanks ∧
      Spelt made.kind lexeme grows ∧ (∀ d ∈ behind.rest.head?, grows d = false) ∧
      made.place = walk at_.place blanks ∧ behind.place = walk made.place lexeme := by
  have blanks := takes_span Text.isBlank at_
  have isBlank : Text.allBlank (at_.span Text.isBlank).1 :=
    List.all_eq_true.2 fun _ => List.mem_takeWhile_imp
  simp only [next] at h
  split at h
  · cases h
    exact absurd rfl more
  · rename_i c rest starts
    obtain ⟨⟨kind, behind⟩, step, same⟩ := map_eq_ok.1 h
    cases same
    obtain ⟨lexeme, grows, whole, spelt, stop⟩ := spelt_of_token step
    obtain ⟨taken, takes⟩ := token_takes step
    have same : c :: taken ++ behind.rest = lexeme ++ behind.rest := by
      rw [← whole, takes.text]
      rfl
    have same : c :: taken = lexeme := List.append_cancel_right same
    refine ⟨_, lexeme, grows, ?_, isBlank, spelt, stop, blanks.place, ?_⟩
    · rw [blanks.text, starts, ← whole]
    · rw [takes.place, ← same]
      rfl

/-- A step that makes no token has only blanks left to take. -/
theorem next_ended {at_ behind : Cursor} {made : Token} (h : next at_ = .ok (made, behind))
    (ended : made.kind = .endOfSource) :
    Text.allBlank at_.rest ∧ made = ⟨.endOfSource, walk at_.place at_.rest⟩ := by
  obtain ⟨whole, place⟩ := takes_span Text.isBlank at_
  have isBlank : Text.allBlank (at_.span Text.isBlank).1 :=
    List.all_eq_true.2 fun _ => List.mem_takeWhile_imp
  simp only [next] at h
  split at h
  · rename_i none
    cases h
    rw [none, List.append_nil] at whole
    rw [whole, ← place]
    exact ⟨isBlank, rfl⟩
  · obtain ⟨⟨kind, behind⟩, step, same⟩ := map_eq_ok.1 h
    cases same
    exact absurd ended (token_kind step)

/-- A step that fails stands behind blanks, where no token starts. -/
theorem next_refused {at_ : Cursor} {error : CompileError} (h : next at_ = .error error) :
    ∃ blanks bad message, at_.rest = blanks ++ bad ∧ Text.allBlank blanks ∧ NoToken bad ∧
      (∃ c ∈ bad.head?, Text.isBlank c = false) ∧
      error = .malformed (walk at_.place blanks) message := by
  obtain ⟨whole, place⟩ := takes_span Text.isBlank at_
  have isBlank : Text.allBlank (at_.span Text.isBlank).1 :=
    List.all_eq_true.2 fun _ => List.mem_takeWhile_imp
  have solid : ∀ c ∈ (at_.rest.dropWhile Text.isBlank).head?, Text.isBlank c = false := span_stop
  have refused := h
  simp only [next] at h
  split at h
  · cases h
  · rename_i c rest starts
    have stopped : token (at_.span Text.isBlank).2.place c
        ⟨rest, step (at_.span Text.isBlank).2.place c⟩ = .error error := by
      cases step : token (at_.span Text.isBlank).2.place c
          ⟨rest, Cursor.step (at_.span Text.isBlank).2.place c⟩ with
      | error problem => rw [step] at h; cases h; rfl
      | ok made => rw [step] at h; cases h
    obtain ⟨message, rfl⟩ := token_refused stopped
    refine ⟨_, c :: rest, message, starts ▸ whole, isBlank, ?_, ⟨c, rfl, ?_⟩, by rw [place]⟩
    · intro kind lexeme grows rest' split spelt
      by_contra none
      have stop : ∀ d ∈ rest'.head?, grows d = false := fun d mem => by
        simpa using fun goes => none ⟨d, mem, goes⟩
      have lexeme := (spelt.isLexeme stop).blank isBlank
      rw [← split, ← starts, ← whole] at lexeme
      obtain ⟨_, _, made⟩ := lexeme.2 at_.place
      rw [refused] at made
      cases made
    · have first : at_.rest.dropWhile Text.isBlank = c :: rest := starts
      exact solid c (by rw [first]; rfl)

/-! ## All steps -/

/-- A lexeme with the blanks in front of it, and the token that is read there. -/
structure Piece where
  blanks : List Char
  lexeme : List Char
  token : Token

def textOf (pieces : List Piece) : List Char :=
  pieces.flatMap fun piece => piece.blanks ++ piece.lexeme

/-- Pieces that stand between `front` and `rest`. In each of them blanks come first, and then a
lexeme that spells the token and that nothing behind it goes on with; the place of the token is that
of the lexeme. -/
def Pieces (front : List Char) (pieces : List Piece) (rest : List Char) : Prop :=
  ∀ before piece after, pieces = before ++ piece :: after →
    Text.allBlank piece.blanks ∧
    (∃ grows, Spelt piece.token.kind piece.lexeme grows ∧
      ∀ d ∈ (textOf after ++ rest).head?, grows d = false) ∧
    piece.token.place = .behind (front ++ textOf before ++ piece.blanks)

variable {front rest : List Char} {pieces : List Piece}

theorem Pieces.nil : Pieces front [] rest := by
  intro before piece after eq
  simp at eq

theorem Pieces.cons {piece : Piece} {grows : Char → Bool} (isBlank : Text.allBlank piece.blanks)
    (spelt : Spelt piece.token.kind piece.lexeme grows)
    (stop : ∀ d ∈ (textOf pieces ++ rest).head?, grows d = false)
    (place : piece.token.place = .behind (front ++ piece.blanks))
    (others : Pieces (front ++ piece.blanks ++ piece.lexeme) pieces rest) :
    Pieces front (piece :: pieces) rest := by
  intro before middle after eq
  cases before with
  | nil =>
    cases eq
    exact ⟨isBlank, ⟨grows, spelt, stop⟩, by simpa [textOf] using place⟩
  | cons first before =>
    cases eq
    obtain ⟨isBlank, spelt, place⟩ := others before middle after rfl
    exact ⟨isBlank, spelt, by simpa [textOf] using place⟩

/-- What is found of a text behind `front`: its tokens, with only blanks behind the last of them
and one end of the source; or where no token can be completed, what stands before it. -/
def Found (front text : List Char) : Except CompileError (List Token) → Prop
  | .ok tokens => ∃ pieces blanks, text = textOf pieces ++ blanks ∧ Text.allBlank blanks ∧
      Pieces front pieces blanks ∧ (∀ piece ∈ pieces, piece.token.kind ≠ .endOfSource) ∧
      tokens = pieces.map (·.token) ++ [⟨.endOfSource, .behind (front ++ text)⟩]
  | .error error => ∃ pieces blanks bad message, text = textOf pieces ++ (blanks ++ bad) ∧
      Text.allBlank blanks ∧ Pieces front pieces (blanks ++ bad) ∧ NoToken bad ∧
      (∃ c ∈ bad.head?, Text.isBlank c = false) ∧
      error = .malformed (.behind (front ++ textOf pieces ++ blanks)) message

theorem textOf_cons (piece : Piece) (pieces : List Piece) :
    textOf (piece :: pieces) = piece.blanks ++ (piece.lexeme ++ textOf pieces) := by
  simp [textOf]

theorem Found.cons (piece : Piece) {grows : Char → Bool} {front text : List Char}
    {result : Except CompileError (List Token)} (isBlank : Text.allBlank piece.blanks)
    (more : piece.token.kind ≠ .endOfSource) (spelt : Spelt piece.token.kind piece.lexeme grows)
    (stop : ∀ d ∈ text.head?, grows d = false)
    (place : piece.token.place = .behind (front ++ piece.blanks))
    (found : Found (front ++ piece.blanks ++ piece.lexeme) text result) :
    Found front (piece.blanks ++ (piece.lexeme ++ text)) (result.map (piece.token :: ·)) := by
  cases result with
  | ok tokens =>
    obtain ⟨pieces, blanks, rfl, last, others, kinds, rfl⟩ := found
    refine ⟨piece :: pieces, blanks, ?_, last, .cons isBlank spelt stop place others,
      List.forall_mem_cons.2 ⟨more, kinds⟩, ?_⟩
    · rw [textOf_cons, List.append_assoc, List.append_assoc]
    · simp
  | error error =>
    obtain ⟨pieces, blanks, bad, message, rfl, last, others, none, solid, rfl⟩ := found
    refine ⟨piece :: pieces, blanks, bad, message, ?_, last,
      .cons isBlank spelt stop place others, none, solid, ?_⟩
    · rw [textOf_cons, List.append_assoc, List.append_assoc]
    · rw [textOf_cons]
      simp

/-- Scanning goes over the text piece by piece, with the cursor right behind what it took. -/
theorem all_found (front : List Char) (at_ : Cursor) (place : at_.place = .behind front) :
    Found front at_.rest (all at_) := by
  have behindOf (taken : List Char) : walk at_.place taken = .behind (front ++ taken) := by
    rw [place, ← walk_start, ← walk_start, walk_append]
  rw [all_eq]
  cases step : next at_ with
  | error error =>
    obtain ⟨blanks, bad, message, whole, isBlank, none, solid, rfl⟩ := next_refused step
    exact ⟨[], blanks, bad, message, whole, isBlank, .nil, none, solid,
      by rw [behindOf, textOf, List.flatMap_nil, List.append_nil]⟩
  | ok made =>
    obtain ⟨made, behind⟩ := made
    simp only [Except.bind]
    split
    · rename_i ended
      obtain ⟨isBlank, rfl⟩ := next_ended step ended
      exact ⟨[], at_.rest, rfl, isBlank, .nil, nofun, by rw [behindOf]; rfl⟩
    · rename_i more
      obtain ⟨blanks, lexeme, grows, whole, isBlank, spelt, stop, start, last⟩ :=
        next_made step more
      have shorter := next_shorter step more
      rw [behindOf] at start
      have found := all_found (front ++ blanks ++ lexeme) behind
        (by rw [last, start, ← walk_start, ← walk_append, walk_start])
      rw [whole]
      exact .cons ⟨blanks, lexeme, made⟩ isBlank more spelt stop start found
termination_by at_.rest.length

end Scanner

/-- The tokens of a source stand in it one behind the other, each as a lexeme at its place, with
blanks before, between and behind them; the last one alone is the end of the source. Of a source
without tokens, the first lexeme that cannot be completed starts at the place that is reported: all
before it are tokens, and nothing that starts there is a lexeme. -/
theorem tokens_are_in_place (source : String) :
    (∀ tokens, tokenize source = .ok tokens → ∃ pieces blanks,
      source.toList = Scanner.textOf pieces ++ blanks ∧ Text.allBlank blanks ∧
      Scanner.Pieces [] pieces blanks ∧ (∀ piece ∈ pieces, piece.token.kind ≠ .endOfSource) ∧
      tokens = pieces.map (·.token) ++ [⟨.endOfSource, .behind source.toList⟩]) ∧
    (∀ error, tokenize source = .error error → ∃ pieces blanks bad message,
      source.toList = Scanner.textOf pieces ++ (blanks ++ bad) ∧ Text.allBlank blanks ∧
      Scanner.Pieces [] pieces (blanks ++ bad) ∧ Scanner.NoToken bad ∧
      (∃ c ∈ bad.head?, Text.isBlank c = false) ∧
      error = .malformed (.behind (Scanner.textOf pieces ++ blanks)) message) := by
  have found := Scanner.all_found [] ⟨source.toList, ⟨1, 1⟩⟩ rfl
  constructor
  · intro tokens made
    rw [tokenize] at made
    rwa [made] at found
  · intro error refused
    rw [tokenize] at refused
    rwa [refused] at found

example : (tokenize "print\n  *é\x7d").toOption = some
    [⟨.word "print", ⟨1, 1⟩⟩, ⟨.text "é", ⟨2, 3⟩⟩, ⟨.closeBrace, ⟨2, 5⟩⟩,
      ⟨.endOfSource, ⟨2, 6⟩⟩] := by
  decide +kernel

end ScriptHost
