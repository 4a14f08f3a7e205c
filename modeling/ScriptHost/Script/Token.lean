import ScriptHost.Script.Conversion
import ScriptHost.Text.Alphanumeric
import ScriptHost.Text.Quoted
/-!
# Tokens of the statement language

A source is a run of tokens between blanks: words, texts, integers, decimal numbers, variables,
braces and the equals sign. `tokenize` reads them with their positions and ends with one
`endOfSource`.

Each step, `Scanner.next`, hands back the cursor behind what it read. `Scanner.next_shorter`: a
step that reads a token other than `endOfSource` leaves strictly less text, so reading ends.
-/
namespace ScriptHost

inductive TokenKind where
  /-- Keywords, action names and routine names; `<name>` is another way to write one. -/
  | word (name : String)
  /-- `"quoted"`, `*"quoted"` or `*word`. -/
  | text (content : String)
  | integer (n : Int64)
  | decimal (x : Binary64)
  /-- `&name`. -/
  | reference (name : String)
  | openBrace
  | closeBrace
  | equals
  | endOfSource
  deriving DecidableEq

/-- A token with the place of its first character. -/
structure Token where
  kind : TokenKind
  place : Position
  deriving DecidableEq

/-- Doubles in diagnostics: the point stands in place from the fourth decimal to sixteen whole
digits. -/
def TokenKind.decimalLayout : DecimalLayout where
  smallestPlain := -4
  largestPlain := 15
  plusSign := false
  tieUp := true

/-- How a diagnostic names a token. -/
def TokenKind.described : TokenKind → String
  | word name => "Word(" ++ quotedForDiagnostics name ++ ")"
  | text content => "Text(" ++ quotedForDiagnostics content ++ ")"
  | integer n => "Integer(" ++ toString n.toInt ++ ")"
  | decimal x => "Float(" ++ decimalLayout.text x ++ ")"
  | reference name => "Variable(" ++ quotedForDiagnostics name ++ ")"
  | openBrace => "LBrace"
  | closeBrace => "RBrace"
  | equals => "Equals"
  | endOfSource => "Eof"

/-- The characters that words are made of. -/
def isWordChar (c : Char) : Bool :=
  Text.isAlphanumeric c || c == '_' || c == '-' || c == '.' || c == ':' || c == '$'

/-- The text still to be read and the place of its first character. -/
structure Cursor where
  rest : List Char
  place : Position

namespace Cursor

/-- The place after a character at `place`. -/
def step (place : Position) (c : Char) : Position :=
  if c = '\n' then ⟨place.line + 1, 1⟩ else ⟨place.line, place.column + 1⟩

def walk (place : Position) (run : List Char) : Position := run.foldl step place

/-- The longest run of characters of a class, and the cursor behind it. -/
def span (p : Char → Bool) (at_ : Cursor) : List Char × Cursor :=
  let run := at_.rest.takeWhile p
  (run, ⟨at_.rest.dropWhile p, walk at_.place run⟩)

end Cursor

namespace Scanner

/-- The first token that cannot be completed starts at `place`. -/
def refuse {α : Type} (place : Position) (message : String) : Except CompileError α :=
  .error (.malformed place message)

/-- The content of a quoted text after its opening quote, added in reverse to `kept`. A
backslash makes `n` a line feed and `t` a tab, and any other character itself. -/
def quoted? (kept : List Char) (place : Position) : List Char → Option (String × Cursor)
  | [] => none
  | '"' :: rest => some (String.ofList kept.reverse, ⟨rest, Cursor.step place '"'⟩)
  | '\\' :: c :: rest =>
    let meant := if c = 'n' then '\n' else if c = 't' then '\t' else c
    quoted? (meant :: kept) (Cursor.step (Cursor.step place '\\') c) rest
  | ['\\'] => none
  | c :: rest => quoted? (c :: kept) (Cursor.step place c) rest

/-- The number that a run of digits and points writes, if it writes one. -/
def number? (run : List Char) : Option TokenKind :=
  if run.contains '.' then (Binary64.read? run).map .decimal
  else (readInt64? run).map .integer

/-- Whether a number starts with `c` before `rest`. -/
def startsNumber (c : Char) (rest : List Char) : Bool :=
  c.isDigit || (c == '-' && (rest.head?.map Char.isDigit).getD false)

/-- The quoted text of the token that starts at `place`; `opening` is the cursor behind its
opening quote. -/
def quotedToken (place : Position) (opening : Cursor) : Except CompileError (TokenKind × Cursor) :=
  match quoted? [] opening.place opening.rest with
  | some (content, behind) => .ok (.text content, behind)
  | none => refuse place "unterminated string"

/-- The token that starts with `c` at `place`, and the cursor behind it; `after` is the cursor
behind `c`. -/
def token (place : Position) (c : Char) (after : Cursor) :
    Except CompileError (TokenKind × Cursor) :=
  let (name, behind) := after.span isWordChar
  if c = '\x7b' then .ok (.openBrace, after)
  else if c = '\x7d' then .ok (.closeBrace, after)
  else if c = '=' then .ok (.equals, after)
  else if c = '"' then quotedToken place after
  else if c = '*' then
    match after.rest with
    | '"' :: rest => quotedToken place ⟨rest, Cursor.step after.place '"'⟩
    | _ =>
      if name.isEmpty then refuse place "expected text after '*'"
      else .ok (.text (String.ofList name), behind)
  else if c = '&' then
    if name.isEmpty then refuse place "expected variable name after '&'"
    else .ok (.reference (String.ofList name), behind)
  else if c = '<' then
    match name, behind.rest with
    | _ :: _, '>' :: rest => .ok (.word (String.ofList name), ⟨rest, Cursor.step behind.place '>'⟩)
    | _, _ => refuse place "unterminated '<...>'"
  else if startsNumber c after.rest then
    let (run, behind) := after.span fun d => d.isDigit || d == '.'
    match number? (c :: run) with
    | some kind => .ok (kind, behind)
    | none => refuse place ("invalid number '" ++ String.ofList (c :: run) ++ "'")
  else if isWordChar c then .ok (.word (String.ofList (c :: name)), behind)
  else refuse place ("unexpected character '" ++ String.ofList [c] ++ "'")

/-- The next token and the cursor behind it; `endOfSource` once only blanks are left. -/
def next (at_ : Cursor) : Except CompileError (Token × Cursor) :=
  let (_, start) := at_.span Text.isBlank
  match start.rest with
  | [] => .ok (⟨.endOfSource, start.place⟩, start)
  | c :: rest =>
    (token start.place c ⟨rest, Cursor.step start.place c⟩).map fun (kind, behind) =>
      (⟨kind, start.place⟩, behind)

theorem length_dropWhile_le (p : Char → Bool) (text : List Char) :
    (text.dropWhile p).length ≤ text.length :=
  (List.dropWhile_sublist p).length_le

theorem length_quoted? {kept text : List Char} {place : Position} {content : String}
    {behind : Cursor} (h : quoted? kept place text = some (content, behind)) :
    behind.rest.length < text.length := by
  fun_induction quoted? kept place text <;> grind

/-- The cursor behind a token is never before the one behind its first character. -/
theorem length_token {place : Position} {c : Char} {after behind : Cursor} {kind : TokenKind}
    (h : token place c after = .ok (kind, behind)) : behind.rest.length ≤ after.rest.length := by
  have words := length_dropWhile_le isWordChar after.rest
  have digits := length_dropWhile_le (fun d => d.isDigit || d == '.') after.rest
  have quotes {place : Position} {text : List Char} {content : String} :
      quoted? [] place text = some (content, behind) → behind.rest.length < text.length :=
        length_quoted?
  simp only [token, quotedToken, Cursor.span, refuse] at h
  grind

theorem next_shorter {at_ behind : Cursor} {token : Token} (h : next at_ = .ok (token, behind))
    (more : token.kind ≠ .endOfSource) : behind.rest.length < at_.rest.length := by
  have blanks := length_dropWhile_le Text.isBlank at_.rest
  simp only [next, Cursor.span] at h
  split at h
  · cases h; exact absurd rfl more
  · next c rest eq =>
    rw [eq] at blanks
    unfold Except.map at h
    split at h
    · cases h
    · next pair step =>
      cases h
      obtain ⟨kind, behind⟩ := pair
      have := length_token step
      simp_all
      omega

/-- The tokens from a cursor on, up to and with the end of the source. -/
def all (at_ : Cursor) : Except CompileError (List Token) :=
  match _step : next at_ with
  | .error refused => .error refused
  | .ok (token, behind) =>
    if _more : token.kind = .endOfSource then .ok [token]
    else
      match all behind with
      | .error refused => .error refused
      | .ok tokens => .ok (token :: tokens)
termination_by at_.rest.length
decreasing_by exact next_shorter _step _more

end Scanner

def tokenize (source : String) : Except CompileError (List Token) :=
  Scanner.all ⟨source.toList, ⟨1, 1⟩⟩

end ScriptHost
