import ScriptHost.Toml.Draft
import ScriptHost.Toml.Scalar
/-!
# TOML documents

`Toml.read?` reads a whole document as a table, and nothing if the text is not a document. A
document is made of lines: headers, which open a table or a further table of an array, and keys
with values, which go to the table opened last. A byte order mark may stand before the first
line. Arrays and inline tables nest less than eighty deep.
-/
namespace ScriptHost.Toml.Document

open Scalar (isSpace isPlain)

def skipSpace (text : List Char) : List Char := text.dropWhile isSpace

/-- What follows a comment, if there is one that can be read. -/
def skipComment? : List Char → Option (List Char)
  | '#' :: rest =>
    let content := rest.takeWhile fun c => c != '\n' && c != '\r'
    if content.all isPlain then some (rest.drop content.length) else none
  | text => some text

/-- What follows the end of a line: blanks, a comment, a line break or the end of the document. -/
def endLine? (text : List Char) : Option (List Char) := do
  match ← skipComment? (skipSpace text) with
  | [] => some []
  | rest => Scalar.afterBreak? rest

/-- What follows blanks, line breaks and comments inside an array. -/
def skipLines (fuel : Nat) (text : List Char) : Option (List Char) :=
  match fuel with
  | 0 => none
  | fuel + 1 =>
    match Scalar.skipBreaks text with
    | '#' :: rest => do
      let behind ← Scalar.afterBreak? (← skipComment? ('#' :: rest))
      skipLines fuel behind
    | rest => some rest

def isBare (c : Char) : Bool := c.isAlphanum || c = '_' || c = '-'

/-- One part of a key: a word or a string on one line. -/
def simpleKey? (text : List Char) : Option (String × List Char) :=
  match text with
  | '"' :: rest => Scalar.basic? (rest.length + 1) [] rest
  | '\'' :: rest => Scalar.literal? rest
  | text =>
    let word := text.takeWhile isBare
    if word.isEmpty then none else some (String.ofList word, text.dropWhile isBare)

/-- A key: its parts, with points and blanks between them. -/
def key? (fuel : Nat) (text : List Char) : Option (List String × List Char) :=
  match fuel with
  | 0 => none
  | fuel + 1 => do
    let (part, rest) ← simpleKey? (skipSpace text)
    match skipSpace rest with
    | '.' :: rest => do
      let (parts, rest) ← key? fuel rest
      some (part :: parts, rest)
    | rest => some ([part], rest)

/-- A key as its parents and its last part. -/
def splitKey (parts : List String) : List String × String := (parts.dropLast, parts.getLastD "")

mutual

/-- A value, with fewer than `depth` collections inside each other. Every call but the first
follows a character just read or is for an item after one, so `fuel`, more than twice the number
of characters, is never used up. -/
def value? (fuel depth : Nat) (text : List Char) : Option (Value × List Char) :=
  match fuel with
  | 0 => none
  | fuel + 1 =>
    match text with
    | '"' :: rest => (Scalar.string? ('"' :: rest)).map fun (s, rest) => (.string s, rest)
    | '\'' :: rest => (Scalar.string? ('\'' :: rest)).map fun (s, rest) => (.string s, rest)
    | 't' :: 'r' :: 'u' :: 'e' :: rest => some (.boolean true, rest)
    | 'f' :: 'a' :: 'l' :: 's' :: 'e' :: rest => some (.boolean false, rest)
    | '[' :: rest =>
      match depth with
      | 0 => none
      | depth + 1 => (items? fuel depth [] rest).map fun (items, rest) => (.array items, rest)
    | '\x7b' :: rest =>
      match depth with
      | 0 => none
      | depth + 1 =>
        match skipSpace rest with
        | '\x7d' :: rest => some (.table [], rest)
        | rest =>
          (entries? fuel depth [] rest).map fun (entries, rest) =>
            ((Draft.table .explicit entries).close, rest)
    | text => Scalar.number? text

/-- The items of an array up to its end; `kept` are those before, in reverse. -/
def items? (fuel depth : Nat) (kept : List Value) (text : List Char) :
    Option (List Value × List Char) :=
  match fuel with
  | 0 => none
  | fuel + 1 =>
    match skipLines (text.length + 1) text with
    | none => none
    | some (']' :: rest) => some (kept.reverse, rest)
    | some text =>
      match value? fuel depth text with
      | none => none
      | some (item, rest) =>
        match skipLines (rest.length + 1) rest with
        | some (']' :: rest) => some ((item :: kept).reverse, rest)
        | some (',' :: rest) => items? fuel depth (item :: kept) rest
        | _ => none

/-- The entries of an inline table up to its end, added to those before. -/
def entries? (fuel depth : Nat) (kept : Draft.Entries) (text : List Char) :
    Option (Draft.Entries × List Char) :=
  match fuel with
  | 0 => none
  | fuel + 1 =>
    match key? (text.length + 1) text with
    | some (parts, '=' :: rest) =>
      match value? fuel depth (skipSpace rest) with
      | none => none
      | some (value, rest) =>
        let (parents, last) := splitKey parts
        match Draft.addValue parents last value kept with
        | none => none
        | some entries =>
          match skipSpace rest with
          | '\x7d' :: rest => some (entries, rest)
          | ',' :: rest => entries? fuel depth entries rest
          | _ => none
    | _ => none

end

/-- The root of a document and the path of the table opened last. -/
structure State where
  root : Draft.Entries
  current : List String

/-- A header, after its opening bracket, or two of them if `element`. -/
def header? (state : State) (element : Bool) (text : List Char) : Option (State × List Char) := do
  let (parts, rest) ← key? (text.length + 1) text
  let rest ← Scalar.char? ']' rest
  let rest ← if element then Scalar.char? ']' rest else some rest
  let (parents, last) := splitKey parts
  let root ← (if element then Draft.openElement else Draft.openTable) parents last state.root
  some (⟨root, parts⟩, ← endLine? rest)

/-- A key with its value. -/
def assignment? (state : State) (text : List Char) : Option (State × List Char) := do
  let (parts, rest) ← key? (text.length + 1) text
  let rest ← Scalar.char? '=' rest
  let (value, rest) ← value? (2 * rest.length + 2) 79 (skipSpace rest)
  let (parents, last) := splitKey parts
  let root ← Draft.within (Draft.addValue parents last value) state.current state.root
  some ({ state with root }, ← endLine? rest)

/-- The lines of a document up to its end. Each takes at least one character, so `fuel`, more
than their number, is never used up. -/
def lines? (fuel : Nat) (state : State) (text : List Char) : Option Draft.Entries :=
  match fuel with
  | 0 => none
  | fuel + 1 =>
    match skipSpace text with
    | [] => some state.root
    | '#' :: rest => do lines? fuel state (← endLine? ('#' :: rest))
    | '\n' :: rest => lines? fuel state rest
    | '\r' :: '\n' :: rest => lines? fuel state rest
    | '[' :: '[' :: rest => do
      let (state, rest) ← header? state true rest
      lines? fuel state rest
    | '[' :: rest => do
      let (state, rest) ← header? state false rest
      lines? fuel state rest
    | text => do
      let (state, rest) ← assignment? state text
      lines? fuel state rest

def content (text : String) : List Char :=
  match text.toList with
  | '\uFEFF' :: rest => rest
  | chars => chars

end ScriptHost.Toml.Document

namespace ScriptHost.Toml

/-- The table that a document gives. -/
def read? (text : String) : Option (Table Value) :=
  let chars := Document.content text
  (Document.lines? (chars.length + 1) ⟨[], []⟩ chars).map fun entries =>
    Table.ofList (Draft.closeEntries entries)

end ScriptHost.Toml
