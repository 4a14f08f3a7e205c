import ScriptHost.Text.Blank
/-!
# Fragments of generated source

Control flow is put around configured texts as a tree of fragments, which is written out at the
end. Every line is indented by four spaces for each fragment around it; a text contributes its
lines that hold more than blanks, or the statement `null` if it has none.
-/
namespace ScriptHost

/-- What an error matcher runs. -/
structure ExceptionClause where
  matcher : String
  handler : String
  deriving DecidableEq, Repr

inductive Fragment where
  | literal (text : String)
  /-- A body with one `catch` for each clause. -/
  | guarded (body : Fragment) (clauses : List ExceptionClause)
  /-- A body that runs if the condition holds, with what runs if not. -/
  | conditional (condition : String) (body : Fragment) (deny : String)
  | routine (name : String) (body : Fragment)
  deriving DecidableEq, Repr, Inhabited

/-- The statement that stands for an empty text. -/
def nullStatement : String := "null"

/-- A line of generated source, without its indentation and its break. -/
structure SourceLine where
  depth : Nat
  text : String

namespace SourceLine

def written (line : SourceLine) : String :=
  String.join (List.replicate line.depth "    ") ++ line.text ++ "\n"

/-- The lines of a configured text. -/
def ofText (depth : Nat) (text : String) : List SourceLine :=
  if isBlankText text then [⟨depth, nullStatement⟩]
  else
    let lines := (Text.lines text.toList).filter fun line => !Text.allBlank line
    lines.map fun line => ⟨depth, String.ofList (Text.trimEnd line)⟩

end SourceLine

/-- A text as a literal of the statement language. -/
def quotedLiteral (text : String) : String :=
  let quote : Char → List Char
    | '"' => ['\\', '"']
    | '\\' => ['\\', '\\']
    | '\n' => ['\\', 'n']
    | c => [c]
  String.ofList ('"' :: text.toList.flatMap quote ++ ['"'])

namespace Fragment

/-- The lines of a fragment that stands at this depth. -/
def lines (depth : Nat) : Fragment → List SourceLine
  | literal text => SourceLine.ofText depth text
  | guarded body clauses =>
    let clauseLines (clause : ExceptionClause) : List SourceLine :=
      ⟨depth, "\x7d catch with " ++ quotedLiteral clause.matcher ++ " \x7b"⟩ ::
        SourceLine.ofText (depth + 1) clause.handler
    ⟨depth, "try \x7b"⟩ :: body.lines (depth + 1) ++ clauses.flatMap clauseLines ++
      [⟨depth, "\x7d"⟩]
  | conditional condition body deny =>
    ⟨depth, "if \x7b"⟩ :: SourceLine.ofText (depth + 1) condition ++
      ⟨depth, "\x7d then \x7b"⟩ :: body.lines (depth + 1) ++
      ⟨depth, "\x7d else \x7b"⟩ :: SourceLine.ofText (depth + 1) deny ++ [⟨depth, "\x7d"⟩]
  | routine name body =>
    ⟨depth, "def " ++ name ++ " = \x7b"⟩ :: body.lines (depth + 1) ++ [⟨depth, "\x7d"⟩]

def render (fragment : Fragment) : String :=
  String.join ((fragment.lines 0).map SourceLine.written)

end Fragment
end ScriptHost
