import ScriptHost.Script.Statement
import ScriptHost.Script.Token
import ScriptHost.Table
/-!
# Grammar of the statement language

A source is either routines, `def name = { … }`, or bare statements, which make up the routine
`main`. A statement is a literal, a variable, a block in braces, a keyword statement, or a host
action followed by exactly as many arguments as it takes; every argument is a statement again,
so no statement needs a terminator.

`Grammar.routines` reads a run of tokens that ends in `endOfSource`. Each reader hands back what
is left together with the proof that it is shorter, which is what makes reading end; the end
itself is never taken.
-/
namespace ScriptHost

/-- The routine of a source without explicit routines. -/
def mainRoutine : String := "main"

/-- Words with a meaning of their own. -/
inductive Keyword where
  | literal (value : Value)
  | print
  | assign
  | fetch
  | negate
  | choose
  | attempt
  | throw
  | call
  | wait
  | define
  /-- A word that only stands inside another statement. -/
  | connective

def Keyword.ofWord? : String → Option Keyword
  | "null" => some (literal .null)
  | "true" => some (literal (.bool true))
  | "false" => some (literal (.bool false))
  | "print" => some print
  | "set" => some assign
  | "get" => some fetch
  | "not" => some negate
  | "if" => some choose
  | "try" => some attempt
  | "throw" => some throw
  | "call" => some call
  | "wait" => some wait
  | "def" => some define
  | "then" | "else" | "catch" | "with" | "to" => some connective
  | _ => none

namespace Grammar

/-- What is left of `tokens` after at least one of them was taken. -/
abbrev Rest (tokens : List Token) := { rest : List Token // rest.length < tokens.length }

/-- What is left of `tokens` after any number of them was taken. -/
abbrev Tail (tokens : List Token) := { rest : List Token // rest.length ≤ tokens.length }

theorem Rest.shorter {tokens : List Token} (rest : Rest tokens) : rest.val.length < tokens.length :=
  rest.property

/-- A rest weighs less than what it is left of, whatever reader either is given to. -/
theorem Rest.lighter {tokens : List Token} (rest : Rest tokens) {i j : Nat} (h : i ≤ 2) :
    3 * rest.val.length + i < 3 * tokens.length + j := by
  have := rest.property
  omega

/-- What is left after more was taken from the rest. -/
def Rest.andThen {tokens : List Token} (first : Rest tokens) (second : Rest first.val) :
    Rest tokens :=
  ⟨second.val, Nat.lt_trans second.property first.property⟩

def Rest.andTail {tokens : List Token} (first : Rest tokens) (second : Tail first.val) :
    Rest tokens :=
  ⟨second.val, Nat.lt_of_le_of_lt second.property first.property⟩

def Rest.toTail {tokens : List Token} (rest : Rest tokens) : Tail tokens :=
  ⟨rest.val, Nat.le_of_lt rest.property⟩

/-- The first token, and what follows it unless it is the end of the source. -/
def first : (tokens : List Token) → Token × Option (Rest tokens)
  | [] => (⟨.endOfSource, ⟨1, 1⟩⟩, none)
  | token :: rest =>
    if token.kind = .endOfSource then (token, none) else (token, some ⟨rest, Nat.lt_succ_self _⟩)

def refuse {α : Type} (token : Token) (message : String) : Except CompileError α :=
  .error (.malformed token.place message)

/-- Refuses a token where another was expected. -/
def refuseFor {α : Type} (token : Token) (expected : String) : Except CompileError α :=
  refuse token ("expected " ++ expected ++ ", found " ++ token.kind.described)

/-- Takes the first token if `accept` makes something of it. -/
def take {α : Type} (expected : String) (accept : TokenKind → Option α) (tokens : List Token) :
    Except CompileError (α × Rest tokens) :=
  match first tokens with
  | (token, some rest) =>
    match accept token.kind with
    | some a => .ok (a, rest)
    | none => refuseFor token expected
  | (token, none) => refuseFor token expected

def takeKind (kind : TokenKind) (expected : String) (tokens : List Token) :
    Except CompileError (Rest tokens) :=
  (take expected (fun k => if k = kind then some () else none) tokens).map (·.2)

def takeWord (word : String) (tokens : List Token) : Except CompileError (Rest tokens) :=
  takeKind (.word word) ("'" ++ word ++ "'") tokens

def takeName (expected : String) (tokens : List Token) :
    Except CompileError (String × Rest tokens) :=
  take expected (fun | .word name => some name | _ => none) tokens

/-- The pattern of a `catch` clause, a text or a word. -/
def takePattern (tokens : List Token) : Except CompileError (String × Rest tokens) :=
  take "error matcher" (fun | .word name => some name | .text content => some content | _ => none)
    tokens

/-- What follows a token of this kind, if the first is one. -/
def after? (kind : TokenKind) (tokens : List Token) : Option (Rest tokens) :=
  match first tokens with
  | (token, some rest) => if token.kind = kind then some rest else none
  | (_, none) => none

mutual

/-- Reads one statement. -/
def statement (actions : Table HostAction) (tokens : List Token) :
    Except CompileError (Statement × Rest tokens) :=
  match first tokens with
  | (token, none) => refuse token ("unexpected " ++ token.kind.described)
  | (token, some rest) =>
    match token.kind with
    | .openBrace => do
      let (body, behind) ← blockBody actions rest.val
      return (.block body, rest.andThen behind)
    | .text content => .ok (.literal (.string content), rest)
    | .integer n => .ok (.literal (.number (.whole (Whole.ofInt64 n))), rest)
    | .decimal x => .ok (.literal (Value.ofBinary64 x), rest)
    | .reference name => .ok (.reference name, rest)
    | .word word => do
      let (read, behind) ← wordStatement actions token word rest.val
      return (read, rest.andTail behind)
    | kind => refuse token ("unexpected " ++ kind.described)
termination_by 3 * tokens.length + 0
decreasing_by
  all_goals exact Rest.lighter _ (by decide)

/-- Reads the statements of a block and the brace that closes it. -/
def blockBody (actions : Table HostAction) (tokens : List Token) :
    Except CompileError (List Statement × Rest tokens) :=
  match after? .closeBrace tokens with
  | some behind => .ok ([], behind)
  | none =>
    match first tokens with
    | (token, none) => refuse token "unclosed '\x7b'"
    | (_, some _) => do
      let (read, rest) ← statement actions tokens
      let (others, behind) ← blockBody actions rest.val
      return (read :: others, rest.andThen behind)
termination_by 3 * tokens.length + 1
decreasing_by
  all_goals first
    | exact Rest.lighter _ (by decide)
    | omega

/-- Reads what follows the word that a statement starts with. -/
def wordStatement (actions : Table HostAction) (token : Token) (word : String)
    (tokens : List Token) : Except CompileError (Statement × Tail tokens) :=
  match Keyword.ofWord? word with
  | some (.literal value) => .ok (.literal value, ⟨tokens, Nat.le_refl _⟩)
  | some .print => do
    let (line, rest) ← statement actions tokens
    return (.print line.toParam.narrow, rest.toTail)
  | some .assign => do
    let (name, rest) ← takeName "variable name" tokens
    let rest := rest.andThen (← takeWord "to" rest.val)
    let (value, behind) ← statement actions rest.val
    return (.assign name value.toParam, (rest.andThen behind).toTail)
  | some .fetch => do
    let (name, rest) ← takeName "variable name" tokens
    return (.reference name, rest.toTail)
  | some .negate => do
    let (value, rest) ← statement actions tokens
    return (.negate value.toParam.narrow, rest.toTail)
  | some .choose => do
    let (condition, rest) ← statement actions tokens
    let rest := rest.andThen (← takeWord "then" rest.val)
    let (whenTrue, behind) ← statement actions rest.val
    let rest := rest.andThen behind
    match after? (.word "else") rest.val with
    | none => return (.choose condition.toParam.narrow whenTrue none, rest.toTail)
    | some behind =>
      let rest := rest.andThen behind
      let (whenFalse, behind) ← statement actions rest.val
      return (.choose condition.toParam.narrow whenTrue (some whenFalse),
        (rest.andThen behind).toTail)
  | some .attempt => do
    let (body, rest) ← statement actions tokens
    let (clauses, behind) ← catchClauses actions rest.val
    if clauses.isEmpty then refuse token "'try' without 'catch'"
    else return (.attempt body clauses, (rest.andTail behind).toTail)
  | some .throw => do
    let (message, rest) ← statement actions tokens
    return (.throw message.toParam.narrow, rest.toTail)
  | some .call => do
    let (routine, rest) ← takeName "routine name" tokens
    return (.call routine, rest.toTail)
  | some .wait => do
    let (milliseconds, rest) ← statement actions tokens
    return (.wait milliseconds.toParam.narrow, rest.toTail)
  | some .define => refuse token "'def' is only allowed at top level"
  | some .connective => refuse token ("unexpected '" ++ word ++ "'")
  | none =>
    match actions.get? word with
    | none => .error (.unknownAction word token.place)
    | some action => do
      let (args, rest) ← arguments actions action.arity tokens
      return (.host word action args, rest)
termination_by 3 * tokens.length + 2
decreasing_by
  all_goals first
    | exact Rest.lighter _ (by decide)
    | omega

/-- Reads the clauses of a `try`, as many as there are. -/
def catchClauses (actions : Table HostAction) (tokens : List Token) :
    Except CompileError (List (String × Statement) × Tail tokens) :=
  match after? (.word "catch") tokens with
  | none => .ok ([], ⟨tokens, Nat.le_refl _⟩)
  | some rest => do
    let rest := rest.andThen (← takeWord "with" rest.val)
    let (pattern, behind) ← takePattern rest.val
    let rest := rest.andThen behind
    let (body, behind) ← statement actions rest.val
    let rest := rest.andThen behind
    let (others, behind) ← catchClauses actions rest.val
    return ((pattern, body) :: others, (rest.andTail behind).toTail)
termination_by 3 * tokens.length + 1
decreasing_by
  all_goals exact Rest.lighter _ (by decide)

/-- Reads this many arguments. -/
def arguments (actions : Table HostAction) (count : Nat) (tokens : List Token) :
    Except CompileError (List (Param Statement Value) × Tail tokens) :=
  match count with
  | 0 => .ok ([], ⟨tokens, Nat.le_refl _⟩)
  | count + 1 => do
    let (argument, rest) ← statement actions tokens
    let (others, behind) ← arguments actions count rest.val
    return (argument.toParam :: others, (rest.andTail behind).toTail)
termination_by 3 * tokens.length + 1
decreasing_by
  all_goals first
    | exact Rest.lighter _ (by decide)
    | omega

end

/-- Reads statements up to the end of the source. -/
def statements (actions : Table HostAction) (tokens : List Token) :
    Except CompileError (List Statement) :=
  match first tokens with
  | (_, none) => .ok []
  | (_, some _) => do
    let (read, rest) ← statement actions tokens
    return read :: (← statements actions rest.val)
termination_by tokens.length
decreasing_by exact Rest.shorter _

/-- Reads routines up to the end of the source and adds them to those before. -/
def definitions (actions : Table HostAction) (before : Table Statement) (tokens : List Token) :
    Except CompileError (Table Statement) :=
  match first tokens with
  | (_, none) => .ok before
  | (_, some _) => do
    let rest ← takeWord "def" tokens
    let (name, behind) ← takeName "routine name" rest.val
    let rest := rest.andThen behind
    let rest := rest.andThen (← takeKind .equals "'='" rest.val)
    let rest := rest.andThen (← takeKind .openBrace "'\x7b'" rest.val)
    let (body, behind) ← blockBody actions rest.val
    let rest := rest.andThen behind
    if before.contains name then .error (.duplicateRoutine name)
    else definitions actions (before.insert name (.block body)) rest.val
termination_by tokens.length
decreasing_by exact Rest.shorter _

/-- The routines that a source defines, every call among them resolved. -/
def routines (actions : Table HostAction) (tokens : List Token) :
    Except CompileError (Table Statement) := do
  let defined ←
    match after? (.word "def") tokens with
    | some _ => definitions actions .empty tokens
    | none => do
      let body ← statements actions tokens
      pure (Table.empty.insert mainRoutine (.block body))
  match (defined.values.flatMap Statement.calls).find? fun name => !defined.contains name with
  | some name => .error (.undefinedRoutine name)
  | none => return defined

end Grammar
end ScriptHost
