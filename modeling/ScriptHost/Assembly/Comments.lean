import ScriptHost.Text.Blank
/-!
# Comments

A comment runs from `//` to the end of its line, or from `/*` to the next `*/`, and starts
outside quoted text only. `stripComments` takes comments out, keeping the line breaks of block
comments, and then drops the lines that hold only blanks and the blanks at the end of the
others; each line that is left ends in a line feed.
-/
namespace ScriptHost

namespace Comments

/-- Where in a source a character stands. -/
inductive Mode where
  | code
  /-- Inside quotes; `escaped` right after a backslash. -/
  | quoted (escaped : Bool)
  | line
  /-- Inside a block comment; `closing` right after a star. -/
  | block (closing : Bool)
  deriving DecidableEq

/-- Where the next character stands, after `c` inside quotes. -/
def insideQuotes (escaped : Bool) (c : Char) : Mode :=
  if escaped then .quoted false
  else if c = '\\' then .quoted true
  else if c = '"' then .code
  else .quoted false

/-- Where the next character stands, after `c` inside a block comment. -/
def insideBlock (closing : Bool) (c : Char) : Mode :=
  if closing && c = '/' then .code else .block (c = '*')

/-- A text without its comments. -/
def erase : Mode → List Char → List Char
  | _, [] => []
  | .code, '/' :: '/' :: rest => erase .line rest
  | .code, '/' :: '*' :: rest => erase (.block false) rest
  | .code, c :: rest => c :: erase (if c = '"' then .quoted false else .code) rest
  | .quoted escaped, c :: rest => c :: erase (insideQuotes escaped c) rest
  | .line, '\n' :: rest => '\n' :: erase .code rest
  | .line, _ :: rest => erase .line rest
  | .block closing, c :: rest =>
    if c = '\n' then '\n' :: erase (.block false) rest else erase (insideBlock closing c) rest

/-- The lines of a text that hold more than blanks, without the blanks at their ends. -/
def tidyLines (text : List Char) : List (List Char) :=
  ((Text.lines text).filter fun line => !Text.allBlank line).map Text.trimEnd

end Comments

/-- A source without comments, blank lines, and blanks at the ends of lines. -/
def stripComments (source : String) : String :=
  let lines := Comments.tidyLines (Comments.erase .code source.toList)
  String.ofList (lines.flatMap (· ++ ['\n']))

end ScriptHost
