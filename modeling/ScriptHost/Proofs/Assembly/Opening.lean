import ScriptHost.Assembly.HandlerSource
import ScriptHost.Dispatch.Graph
import ScriptHost.Proofs.Script.Separating
/-!
# How assembled sources start and end

An assembled source is a run of whole lines, and its first line opens the routine that it is
named for. So its first four tokens are known whatever the configured texts hold, and the tokens
of sources that stand one after the other do not run into each other.

**Results.**
* `assembleHandler_opening`, `stripComments_whole`: the first line of an assembled source, and
  that it ends its last line.
* `Scanner.Scans.opening`: the tokens of a text that opens a routine start with those of the
  opening.
* `Handler.plain_routineName`: the name of a handler's routine is one word.
-/
namespace ScriptHost

/-! ## Lines -/

namespace Text

theorem lines_cons {line more : List Char} (h : '\n' ∉ line) :
    lines (line ++ '\n' :: more) = closeLine line :: lines more := by
  have plain : ∀ c ∈ line, (c != '\n') = true := by
    intro c mem
    simp only [bne_iff_ne, ne_eq]
    rintro rfl
    exact h mem
  have cut : (line ++ '\n' :: more).takeWhile (· != '\n') = line := by
    rw [List.takeWhile_append_of_pos plain]
    simp
  have left : (line ++ '\n' :: more).dropWhile (· != '\n') = '\n' :: more := by
    rw [List.dropWhile_append_of_pos plain]
    simp
  cases whole : line ++ '\n' :: more with
  | nil => simp at whole
  | cons first others =>
    rw [whole] at cut left
    rw [lines]
    split
    · rename_i none
      rw [left] at none
      cases none
    · rename_i rest eq
      rw [left] at eq
      cases eq
      rw [cut]

theorem trimEnd_append {line : List Char} {c : Char} (h : isBlank c = false) :
    trimEnd (line ++ [c]) = line ++ [c] := by
  induction line with
  | nil => simp [trimEnd, h]
  | cons d rest ih =>
    rw [List.cons_append, trimEnd, ih]
    cases rest <;> rfl

end Text

theorem Comments.erase_plain {front : List Char}
    (h : '/' ∉ front ∧ '"' ∉ front) (more : List Char) :
    erase .code (front ++ more) = front ++ erase .code more := by
  induction front with
  | nil => rfl
  | cons c rest ih =>
    simp only [List.mem_cons, not_or] at h
    rw [List.cons_append, erase, if_neg (Ne.symm h.2.1), ih ⟨h.1.2, h.2.2⟩, List.cons_append]
    · rintro _ rfl
      exact absurd rfl h.1.1
    · rintro _ rfl
      exact absurd rfl h.1.1

theorem stripComments_whole (source : String) :
    Scanner.WholeLines (stripComments source).toList := by
  simp only [stripComments, String.toList_ofList]
  generalize Comments.tidyLines _ = kept
  induction kept with
  | nil => exact .inl rfl
  | cons line rest ih =>
    refine .inr ?_
    rw [List.flatMap_cons]
    rcases ih with empty | ends
    · rw [empty]
      simp
    · rw [List.getLast?_append, ends]
      rfl

/-- A first line of plain text that ends in a solid character stays. -/
theorem stripComments_cons {front more : List Char} {c : Char} (solid : Text.isBlank c = false)
    (plain : '/' ∉ front ++ [c] ∧ '"' ∉ front ++ [c] ∧ '\n' ∉ front ++ [c]) :
    ∃ rest, (stripComments (String.ofList (front ++ [c] ++ '\n' :: more))).toList = front ++ [c] ++
      '\n' :: rest := by
  obtain ⟨noSlash, noQuote, oneLine⟩ := plain
  have kept : Text.closeLine (front ++ [c]) = front ++ [c] := by
    unfold Text.closeLine
    rw [List.getLast?_concat]
    split
    · rename_i eq
      cases eq
      exact absurd solid (by decide)
    · rfl
  have notBlank : ¬ Text.allBlank (front ++ [c]) := by simp [Text.allBlank, solid]
  have newline : '/' ∉ ['\n'] ∧ '"' ∉ ['\n'] := by decide
  have erased : Comments.erase .code ('\n' :: more) = '\n' :: Comments.erase .code more :=
    Comments.erase_plain newline more
  refine ⟨(Comments.tidyLines (Comments.erase .code more)).flatMap (· ++ ['\n']), ?_⟩
  simp only [stripComments, String.toList_ofList]
  rw [Comments.erase_plain ⟨noSlash, noQuote⟩, erased, Comments.tidyLines,
    Text.lines_cons oneLine, kept,
    List.filter_cons_of_pos (by simpa using notBlank), List.map_cons, Text.trimEnd_append solid,
      List.flatMap_cons]
  simp [Comments.tidyLines]

/-! ## The first tokens -/

namespace Scanner

def opening (name : String) : List Char :=
  "def".toList ++ ' ' :: (name.toList ++ ' ' :: ['=', ' ', '\x7b'])

theorem Scans.opening {name : String} (isWord : IsWord name) {more : List Char}
    {kinds : List TokenKind} (h : Scans (opening name ++ more) kinds) :
    ∃ others, kinds = .word "def" :: .word name :: .equals :: .openBrace :: others := by
  have isDef : IsWord "def" :=
    ⟨'d', ['e', 'f'], rfl, by decide, by decide, List.all_eq_true.1 (by decide)⟩
  have space : Text.allBlank [' '] := by decide
  have stop : isWordChar ' ' = false := by decide
  simp only [Scanner.opening, List.append_assoc, List.cons_append, List.nil_append] at h
  have first : Lexeme (.word "def") _ _ :=
    lexeme_word isDef stop (name.toList ++ ' ' :: '=' :: ' ' :: '\x7b' :: more)
  have second : Lexeme (.word name) _ _ := lexeme_word isWord stop ('=' :: ' ' :: '\x7b' :: more)
  obtain ⟨_, rfl, afterDef⟩ := h.after first
  obtain ⟨_, rfl, afterName⟩ := afterDef.after (second.blank space)
  obtain ⟨_, rfl, afterEquals⟩ := afterName.after ((lexeme_equals _).blank space)
  obtain ⟨_, rfl, -⟩ := afterEquals.after ((lexeme_openBrace _).blank space)
  exact ⟨_, rfl⟩

end Scanner

/-! ## Assembled sources -/

theorem Fragment.render_routine (name : String) (body : Fragment) :
    ∃ more, (routine name body).render = String.ofList (Scanner.opening name ++ '\n' :: more) := by
  refine ⟨(String.join ((body.lines 1 ++ [SourceLine.mk 0 "\x7d"]).map SourceLine.written)).toList,
    ?_⟩
  apply String.toList_injective
  simp [render, lines, SourceLine.written, Scanner.opening]

theorem assembleHandler_opening {entry : String} (isWord : IsWord entry)
    (handle condition deny : String) (clauses : List ExceptionClause) :
    ∃ rest, (assembleHandler entry handle condition deny clauses).toList =
      Scanner.opening entry ++ '\n' :: rest := by
  obtain ⟨more, eq⟩ : ∃ more, (handlerFragment entry handle condition deny clauses).render =
      String.ofList (Scanner.opening entry ++ '\n' :: more) := Fragment.render_routine entry _
  have plain {c : Char} (no : isWordChar c = false) (other : c ∉ ("def  = \x7b".toList)) :
      c ∉ Scanner.opening entry := by
    obtain ⟨d, rest, named, -, -, word⟩ := isWord
    have : c ∉ entry.toList := fun mem => by
      rw [word c (named ▸ mem)] at no
      cases no
    simp_all [Scanner.opening]
  have split : Scanner.opening entry = ("def ".toList ++ entry.toList ++ " = ".toList) ++
      ['\x7b'] := by
    simp [Scanner.opening]
  rw [assembleHandler, eq, split]
  exact stripComments_cons (by decide)
    (split ▸ ⟨plain (by decide) (by decide), plain (by decide) (by decide),
    plain (by decide) (by decide)⟩)

theorem Digest.isWordChar_ofText {text : String} : ∀ c ∈ (ofText text).toList, isWordChar c := by
  have digit : ∀ n < 16, isWordChar (Nat.digitChar n) := by decide
  intro c mem
  simp only [ofText, ofBytes, String.toList_ofList, List.mem_flatMap] at mem
  obtain ⟨w, -, mem⟩ := mem
  simp only [hexWord, hexByte, List.mem_append, List.mem_cons, List.not_mem_nil, or_false] at mem
  rcases mem with ((((rfl | rfl) | rfl | rfl) | rfl | rfl) | rfl | rfl) <;> exact digit _
    (Nat.mod_lt _ (by decide))

theorem Handler.isWord_routineName (id : String) : IsWord (routineName id) := by
  refine ⟨'h', "andler_".toList ++ (Digest.ofText id).toList.take 16,
    by simp [routineName], by decide, by decide, ?_⟩
  intro d mem
  have mem : d ∈ "handler_".toList ++ (Digest.ofText id).toList.take 16 := mem
  rcases List.mem_append.1 mem with mem | mem
  · have wordly : "handler_".toList.all isWordChar = true := by decide
    exact List.all_eq_true.1 wordly d mem
  · exact Digest.isWordChar_ofText d (List.mem_of_mem_take mem)

end ScriptHost
