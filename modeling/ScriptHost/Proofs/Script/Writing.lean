import ScriptHost.Proofs.Script.Compiling
import ScriptHost.Proofs.Script.Converting
import ScriptHost.Proofs.Script.Spelling
import ScriptHost.Script.StandardActions
/-!
# Writing statements

Every statement made of plain literals can be written as a text, and compiling that text gives
the statement back. Statements have no terminators, so each must end where the next one starts:
nothing but a branch or a clause may stand before an `else` or a `catch`, and those are blocks,
which end with a brace.

A literal that stands where the compiler would have converted it comes back converted
(`Statement.compiled`).

**Results.**
* `Statement.reads`, `Statement.spellable`: the tokens of a statement are read as that statement,
  whatever follows it, and all of them can be spelled.
* `defines_kindsOfRoutines`, `link_eq_ok`: the tokens of some definitions are read as those
  definitions, which are linked to the table that they were taken from.
* `written_compiles`: compiling the text of some routines gives those routines.
-/
namespace ScriptHost

open Grammar Scanner

/-! ## Literals -/

namespace Value

/-- Whether a value can be written as a literal. -/
def Plain : Value → Prop
  | null | bool _ | string _ => True
  | number (.whole n) => n.val < 0x8000000000000000
  | number (.float _) | array _ | object _ => False

/-- The token of a plain value. -/
def kind : Value → TokenKind
  | null => .word "null"
  | bool true => .word "true"
  | bool false => .word "false"
  | number (.whole n) => .integer (Int64.ofInt n.val)
  | string s => .text s
  | number (.float _) | array _ | object _ => .endOfSource

theorem kind_spellable {value : Value} (h : value.Plain) : value.kind.Spellable := by
  match value, h with
  | null, _ => exact (by decide : IsName "null")
  | bool true, _ => exact (by decide : IsName "true")
  | bool false, _ => exact (by decide : IsName "false")
  | number (.whole _), _ | string _, _ => trivial

theorem reads {actions : Table HostAction} {value : Value} (h : value.Plain)
    (after : List TokenKind) :
    Reads actions (.statement (.literal value)) (value.kind :: after) after := by
  match value, h with
  | null, _ | bool true, _ | bool false, _ => exact .literal rfl
  | string _, _ => exact .text
  | number (.whole n), h =>
    have h : n.val < 0x8000000000000000 := h
    have lower := n.property.1
    have same : n = Whole.ofInt64 (Int64.ofInt n.val) := by
      apply Subtype.ext
      exact (Int64.toInt_ofInt_of_le (by omega) (by omega)).symm
    have read : Reads actions (.statement (.literal (.number (.whole (Whole.ofInt64
        (Int64.ofInt n.val)))))) (.integer (Int64.ofInt n.val) :: after) after := .integer
    rwa [← same] at read

end Value

/-- Types of parameters with values that can be written as literals. -/
class Literal (α : Type) [FromValue α] where
  literal : α → Value
  fromValue_literal : ∀ a, (literal a).Plain → fromValue (literal a) = .ok a

instance : Literal Value := ⟨id, fun _ _ => rfl⟩
instance : Literal String := ⟨.string, fun _ _ => rfl⟩
instance : Literal Bool := ⟨.bool, fun _ _ => rfl⟩

theorem fromValue_number (n : Number) : (fromValue (.number n) : Except ScriptError UInt64) =
    if n.toInt64 < 0 then .error (.typeMismatch "unsigned integer" (.number n))
    else .ok n.toInt64.toUInt64 := rfl

/-- An unsigned integer as one that a value can hold. -/
def Whole.ofUInt64 (n : UInt64) : Whole := ⟨n.toNat, by have := n.toNat_lt; omega⟩

instance : Literal UInt64 where
  literal n := .number (.whole (.ofUInt64 n))
  fromValue_literal n plain := by
    have small : (n.toNat : Int) < 0x8000000000000000 := plain
    have read : Number.toInt64 (.whole (.ofUInt64 n)) = Int64.ofInt n.toNat := by
      rw [Number.toInt64, if_pos (by exact small)]
      rfl
    have natural : ¬ Int64.ofInt n.toNat < 0 := by
      rw [Int64.lt_iff_toInt_lt, Int64.toInt_ofInt_of_le (by omega) (by omega)]
      simp
    have same : (Int64.ofInt n.toNat).toUInt64 = n := by
      rw [Int64.ofInt_eq_ofNat, Int64.toUInt64_ofNat']
      simp
    rw [fromValue_number, read, if_neg natural, same]

namespace Param

variable {α : Type} [FromValue α] [Literal α]

/-- The statement that a parameter stands for. -/
def spoken : Param Statement α → Statement
  | constant a => .literal (Literal.literal a)
  | deferred s => s

/-- Whether the value of a parameter, if it is fixed, can be written as a literal. -/
def Plain : Param Statement α → Prop
  | constant a => (Literal.literal a).Plain
  | deferred _ => True

end Param

/-! ## Statements -/

namespace Statement

mutual

def kinds : Statement → List TokenKind
  | literal value => [value.kind]
  | reference name => [.word "get", .word name]
  | block body => .openBrace :: kindsOfAll body ++ [.closeBrace]
  | print (.constant line) => [.word "print", (Literal.literal line).kind]
  | print (.deferred s) => .word "print" :: s.kinds
  | assign name (.constant value) => [.word "set", .word name, .word "to", value.kind]
  | assign name (.deferred s) => .word "set" :: .word name :: .word "to" :: s.kinds
  | negate (.constant b) => [.word "not", (Literal.literal b).kind]
  | negate (.deferred s) => .word "not" :: s.kinds
  | choose condition whenTrue whenFalse =>
    let tested := match condition with
      | .constant b => [(Literal.literal b).kind]
      | .deferred s => s.kinds
    let otherwise := match whenFalse with
      | none => []
      | some s => .word "else" :: s.kinds
    .word "if" :: tested ++ .word "then" :: whenTrue.kinds ++ otherwise
  | attempt body clauses => .word "try" :: body.kinds ++ kindsOfClauses clauses
  | throw (.constant message) => [.word "throw", (Literal.literal message).kind]
  | throw (.deferred s) => .word "throw" :: s.kinds
  | call routine => [.word "call", .word routine]
  | wait (.constant n) => [.word "wait", (Literal.literal n).kind]
  | wait (.deferred s) => .word "wait" :: s.kinds
  | host name _ arguments => .word name :: kindsOfParams arguments

def kindsOfAll : List Statement → List TokenKind
  | [] => []
  | s :: rest => s.kinds ++ kindsOfAll rest

def kindsOfClauses : List (String × Statement) → List TokenKind
  | [] => []
  | (pattern, s) :: rest =>
    .word "catch" :: .word "with" :: .text pattern :: s.kinds ++ kindsOfClauses rest

def kindsOfParams : List (Param Statement Value) → List TokenKind
  | [] => []
  | .constant value :: rest => value.kind :: kindsOfParams rest
  | .deferred s :: rest => s.kinds ++ kindsOfParams rest

end

/-! ### By parameters and parts -/

theorem kindsOfAll_eq (body : List Statement) : kindsOfAll body = body.flatMap kinds := by
  induction body with
  | nil => rfl
  | cons s rest ih => exact congrArg (s.kinds ++ ·) ih

theorem kindsOfClauses_eq (clauses : List (String × Statement)) : kindsOfClauses clauses =
    clauses.flatMap fun c => .word "catch" :: .word "with" :: .text c.1 :: c.2.kinds := by
  induction clauses with
  | nil => rfl
  | cons clause rest ih =>
    exact congrArg (.word "catch" :: .word "with" :: .text clause.1 :: clause.2.kinds ++ ·) ih

theorem kindsOfParams_eq (arguments : List (Param Statement Value)) :
    kindsOfParams arguments = arguments.flatMap (·.spoken.kinds) := by
  induction arguments with
  | nil => rfl
  | cons p rest ih =>
    rw [List.flatMap_cons, ← ih]
    cases p with
    | constant value => rfl
    | deferred s => rfl

section Equations

variable {name : String} {action : HostAction} {body whenTrue : Statement}

@[simp] theorem kinds_literal (value : Value) : (literal value).kinds = [value.kind] :=
  rfl

@[simp] theorem kinds_reference : (reference name).kinds = [.word "get", .word name] :=
  rfl

@[simp] theorem kinds_call : (call name).kinds = [.word "call", .word name] :=
  rfl

@[simp] theorem kinds_block (body : List Statement) :
    (block body).kinds = .openBrace :: body.flatMap kinds ++ [.closeBrace] := by
  show _ :: kindsOfAll body ++ _ = _
  rw [kindsOfAll_eq]

@[simp] theorem kinds_print (p : Param Statement String) :
    (print p).kinds = .word "print" :: p.spoken.kinds := by
  cases p <;> rfl

@[simp] theorem kinds_throw (p : Param Statement String) :
    (throw p).kinds = .word "throw" :: p.spoken.kinds := by
  cases p <;> rfl

@[simp] theorem kinds_negate (p : Param Statement Bool) :
    (negate p).kinds = .word "not" :: p.spoken.kinds := by
  cases p <;> rfl

@[simp] theorem kinds_wait (p : Param Statement UInt64) :
    (wait p).kinds = .word "wait" :: p.spoken.kinds := by
  cases p <;> rfl

@[simp] theorem kinds_assign (p : Param Statement Value) :
    (assign name p).kinds = .word "set" :: .word name :: .word "to" :: p.spoken.kinds := by
  cases p <;> rfl

@[simp] theorem kinds_choose (p : Param Statement Bool) (whenFalse : Option Statement) :
    (choose p whenTrue whenFalse).kinds = .word "if" :: p.spoken.kinds ++
      .word "then" :: whenTrue.kinds ++
        whenFalse.elim [] fun s => .word "else" :: s.kinds := by
  cases p <;> cases whenFalse <;> rfl

@[simp] theorem kinds_attempt (clauses : List (String × Statement)) :
    (attempt body clauses).kinds = .word "try" :: body.kinds ++
      clauses.flatMap fun c => .word "catch" :: .word "with" :: .text c.1 :: c.2.kinds := by
  show _ :: body.kinds ++ kindsOfClauses clauses = _
  rw [kindsOfClauses_eq]

@[simp] theorem kinds_host (arguments : List (Param Statement Value)) :
    (host name action arguments).kinds = .word name :: arguments.flatMap (·.spoken.kinds) := by
  show _ :: kindsOfParams arguments = _
  rw [kindsOfParams_eq]

end Equations

/-! ### What can be written -/

def IsBlock : Statement → Prop
  | block _ => True
  | _ => False

/-- Whether a statement can be written if its parts can. -/
def Plain (actions : Table HostAction) : Statement → Prop
  | literal value => value.Plain
  | reference name => IsName name
  | block _ => True
  | print p | throw p => p.Plain
  | negate p => p.Plain
  | wait p => p.Plain
  | assign name p => IsName name ∧ p.Plain
  | choose condition whenTrue whenFalse =>
    condition.Plain ∧ whenTrue.IsBlock ∧ ∀ s ∈ whenFalse, s.IsBlock
  | attempt body clauses => body.IsBlock ∧ clauses ≠ [] ∧ ∀ c ∈ clauses, c.2.IsBlock
  | call routine => IsName routine
  | host name action arguments => IsName name ∧ Keyword.ofWord? name = none ∧
      actions.get? name = some action ∧ arguments.length = action.arity ∧
        ∀ p ∈ arguments, p.Plain

def Writable (actions : Table HostAction) (s : Statement) : Prop :=
  ∀ t, Inside t s → t.Plain actions

section Reads

variable {actions : Table HostAction} {s : Statement} {after : List TokenKind}

theorem writable_iff : s.Writable actions ↔
    s.Plain actions ∧ ∀ t ∈ s.parts, t.Writable actions :=
  forall_inside_iff

theorem Writable.plain (h : s.Writable actions) : s.Plain actions := (writable_iff.1 h).1

theorem Writable.part {t : Statement} (h : s.Writable actions) (part : t ∈ s.parts) :
    t.Writable actions := (writable_iff.1 h).2 t part

/-- Tokens that do not go on with a statement before them. -/
def Separate (after : List TokenKind) : Prop :=
  after.head? ≠ some (.word "else") ∧ after.head? ≠ some (.word "catch")

theorem separate_cons {kind : TokenKind} {rest : List TokenKind}
    (h : kind ≠ .word "else" ∧ kind ≠ .word "catch") : Separate (kind :: rest) := by
  simpa [Separate] using h

/-- The tokens of a statement are read as that statement, before whatever may follow it. -/
def Readable (actions : Table HostAction) (s : Statement) : Prop :=
  ∀ after, s.IsBlock ∨ Separate after →
    Reads actions (.statement s.compiled) (s.kinds ++ after) after

/-- No statement starts as if it went on with the one before it. -/
theorem Plain.opens (h : s.Plain actions) (rest : List TokenKind) : Separate (s.kinds ++ rest) := by
  cases s with
  | literal value =>
    refine separate_cons ?_
    match value, h with
    | .null, _ | .bool true, _ | .bool false, _ => exact ⟨by decide, by decide⟩
    | .number (.whole _), _ | .string _, _ => exact ⟨nofun, nofun⟩
  | host name action arguments =>
    rw [kinds_host]
    refine separate_cons ⟨?_, ?_⟩
    all_goals
      intro same
      cases same
      cases h.2.1
  | _ => simp [Separate]

end Reads

end Statement

namespace Param

open Statement

variable {α : Type} [FromValue α] [Literal α] {actions : Table HostAction} {p : Param Statement α}

/-- What a parameter stands for is converted to the parameter. -/
theorem narrow_spoken (plain : p.Plain) : p.spoken.compiled.toParam.narrow = p.compiled := by
  cases p with
  | constant a =>
    rw [spoken, compiled_literal, toParam, narrow]
    simp only [Literal.fromValue_literal a plain]
    rfl
  | deferred s => rfl

theorem readable (plain : p.Plain) (parts : ∀ t ∈ p.statements, Readable actions t)
    {after : List TokenKind} (separate : Separate after) :
    Reads actions (.statement p.spoken.compiled) (p.spoken.kinds ++ after) after := by
  cases p with
  | constant a =>
    rw [spoken, compiled_literal, kinds_literal]
    exact Value.reads plain after
  | deferred s => exact parts s (.head _) after (.inr separate)

theorem opens (plain : p.Plain) (parts : ∀ t ∈ p.statements, t.Plain actions)
    (rest : List TokenKind) : Separate (p.spoken.kinds ++ rest) := by
  cases p with
  | constant a =>
    have plain : (Statement.literal (Literal.literal a)).Plain actions := plain
    exact plain.opens rest
  | deferred s => exact (parts s (.head _)).opens rest

end Param

namespace Statement

section Reads

variable {actions : Table HostAction} {s : Statement} {after : List TokenKind}

theorem reads_body {body : List Statement} (plain : ∀ s ∈ body, s.Plain actions)
    (readable : ∀ s ∈ body, Readable actions s) (after : List TokenKind) :
    Reads actions (.body (body.map compiled)) (body.flatMap kinds ++ .closeBrace :: after)
      after := by
  induction body with
  | nil => exact .bodyEnd
  | cons s rest ih =>
    have others := ih (fun t mem => plain t (.tail _ mem)) fun t mem => readable t (.tail _ mem)
    have next : Separate (rest.flatMap kinds ++ .closeBrace :: after) := by
      cases rest with
      | nil => exact separate_cons ⟨nofun, nofun⟩
      | cons t more =>
        rw [List.flatMap_cons, List.append_assoc]
        exact (plain t (by simp)).opens _
    rw [List.flatMap_cons, List.append_assoc]
    exact .bodyMore (readable s (.head _) _ (.inr next)) others

theorem reads_clauses {clauses : List (String × Statement)}
    (blocks : ∀ c ∈ clauses, c.2.IsBlock) (readable : ∀ c ∈ clauses, Readable actions c.2)
    (noCatch : after.head? ≠ some (.word "catch")) :
    Reads actions (.clauses (clauses.map fun c => (c.1, c.2.compiled)))
      (clauses.flatMap (fun c => .word "catch" :: .word "with" :: .text c.1 :: c.2.kinds) ++ after)
      after := by
  induction clauses with
  | nil => exact .clausesEnd noCatch
  | cons clause rest ih =>
    have others := ih (fun c mem => blocks c (.tail _ mem)) fun c mem => readable c (.tail _ mem)
    have body := readable clause (.head _) (rest.flatMap (fun c =>
      .word "catch" :: .word "with" :: .text c.1 :: c.2.kinds) ++ after) (.inl (blocks _ (.head _)))
    rw [List.flatMap_cons, List.append_assoc]
    exact .clausesMore rfl body others

theorem reads_arguments {arguments : List (Param Statement Value)}
    (constants : ∀ p ∈ arguments, p.Plain)
    (plain : ∀ p ∈ arguments, ∀ t ∈ p.statements, t.Plain actions)
    (readable : ∀ p ∈ arguments, ∀ t ∈ p.statements, Readable actions t)
    (separate : Separate after) :
    Reads actions (.arguments arguments.length (arguments.map Param.compiled))
      (arguments.flatMap (·.spoken.kinds) ++ after) after := by
  induction arguments with
  | nil => exact .argumentsEnd
  | cons p rest ih =>
    have others := ih (fun q mem => constants q (.tail _ mem)) (fun q mem => plain q (.tail _ mem))
      fun q mem => readable q (.tail _ mem)
    have next : Separate (rest.flatMap (·.spoken.kinds) ++ after) := by
      cases rest with
      | nil => exact separate
      | cons q more =>
        rw [List.flatMap_cons, List.append_assoc]
        exact Param.opens (constants q (by simp)) (plain q (by simp)) _
    have first := Param.readable (constants p (.head _)) (readable p (.head _)) next
    rw [List.flatMap_cons, List.append_assoc, List.map_cons, List.length_cons,
      ← Param.narrow_spoken (constants p (.head _)), Param.narrow_value]
    exact .argumentsMore first others

theorem reads (h : s.Writable actions) : Readable actions s := by
  induction s using by_parts with
  | step s ih =>
    have readable (t) (mem : t ∈ s.parts) : Readable actions t := ih t mem (h.part mem)
    have inner (t) (mem : t ∈ s.parts) : t.Plain actions := (h.part mem).plain
    have plain := h.plain
    intro after last
    cases s with
    | literal value =>
      rw [kinds_literal, compiled_literal]
      exact Value.reads plain after
    | reference name =>
      rw [kinds_reference, compiled_reference]
      exact .fetch rfl
    | block body =>
      rw [kinds_block, compiled_block, List.cons_append, List.cons_append, List.append_assoc]
      exact .block (reads_body inner readable after)
    | print p =>
      have separate := last.resolve_left id
      rw [kinds_print, compiled_print, ← Param.narrow_spoken plain]
      exact .print rfl (p.readable plain readable separate)
    | assign name p =>
      have separate := last.resolve_left id
      rw [kinds_assign, compiled_assign, ← Param.narrow_spoken plain.2, Param.narrow_value]
      exact .assign rfl (Param.readable plain.2 readable separate)
    | negate p =>
      have separate := last.resolve_left id
      rw [kinds_negate, compiled_negate, ← Param.narrow_spoken plain]
      exact .negate rfl (Param.readable plain readable separate)
    | choose condition whenTrue whenFalse =>
      have separate := last.resolve_left id
      obtain ⟨constant, isBlock, isBlock'⟩ := plain
      have tested (middle : List TokenKind) :
          Reads actions (.statement condition.spoken.compiled)
            (condition.spoken.kinds ++ .word "then" :: middle) (.word "then" :: middle) :=
        Param.readable constant (fun t mem => readable t (List.mem_append_left _ mem))
          (separate_cons ⟨by decide, by decide⟩)
      rw [kinds_choose, compiled_choose, ← Param.narrow_spoken constant]
      cases whenFalse with
      | none =>
        have first := readable whenTrue (by simp [parts]) after (.inl isBlock)
        simp only [Option.elim_none, List.append_nil, List.cons_append, List.append_assoc]
        exact .choose rfl (tested _) first separate.1
      | some other =>
        have first := readable whenTrue (by simp [parts]) (.word "else" :: (other.kinds ++ after))
          (.inl isBlock)
        have second := readable other (by simp [parts]) after (.inl (isBlock' other rfl))
        simp only [Option.elim_some, List.cons_append, List.append_assoc]
        exact .chooseElse rfl (tested _) first second
    | attempt body clauses =>
      have separate := last.resolve_left id
      obtain ⟨isBlock, some, blocks⟩ := plain
      have tried := readable body (.head _) (clauses.flatMap (fun c =>
        .word "catch" :: .word "with" :: .text c.1 :: c.2.kinds) ++ after) (.inl isBlock)
      have caught := reads_clauses blocks
        (fun c mem => readable c.2 (.tail _ (List.mem_map_of_mem mem))) separate.2
      rw [kinds_attempt, compiled_attempt, List.append_assoc]
      exact .attempt rfl tried caught (by simpa using some)
    | throw p =>
      have separate := last.resolve_left id
      rw [kinds_throw, compiled_throw, ← Param.narrow_spoken plain]
      exact .throw rfl (Param.readable plain readable separate)
    | call routine =>
      rw [kinds_call, compiled_call]
      exact .call rfl
    | wait p =>
      have separate := last.resolve_left id
      rw [kinds_wait, compiled_wait, ← Param.narrow_spoken plain]
      exact .wait rfl (Param.readable plain readable separate)
    | host name action arguments =>
      have separate := last.resolve_left id
      obtain ⟨-, noKeyword, known, count, constants⟩ := plain
      have read := reads_arguments constants
        (fun p mem t part => inner t (List.mem_flatMap.2 ⟨p, mem, part⟩))
        (fun p mem t part => readable t (List.mem_flatMap.2 ⟨p, mem, part⟩)) separate
      rw [kinds_host, compiled_host]
      rw [count] at read
      exact .host noKeyword known read

end Reads

end Statement

/-! ### Spelling -/

theorem Param.spellable {α : Type} [FromValue α] [Literal α] {p : Param Statement α}
    (plain : p.Plain) (parts : ∀ t ∈ p.statements, ∀ kind ∈ t.kinds, kind.Spellable) :
    ∀ kind ∈ p.spoken.kinds, kind.Spellable := by
  cases p with
  | constant a =>
    rw [spoken, Statement.kinds_literal]
    exact List.forall_mem_singleton.2 (Value.kind_spellable plain)
  | deferred s => exact parts s (.head _)

namespace Statement

variable {actions : Table HostAction} {s : Statement}

theorem spellable (h : s.Writable actions) : ∀ kind ∈ s.kinds, kind.Spellable := by
  induction s using by_parts with
  | step s ih =>
    have inner (t) (mem : t ∈ s.parts) : ∀ kind ∈ t.kinds, kind.Spellable := ih t mem (h.part mem)
    have plain := h.plain
    have keyword {word : String} {rest : List TokenKind} (isName : IsName word)
        (h : ∀ kind ∈ rest, kind.Spellable) : ∀ kind ∈ .word word :: rest, kind.Spellable :=
      List.forall_mem_cons.2 ⟨isName, h⟩
    cases s with
    | literal value =>
      rw [kinds_literal]
      exact List.forall_mem_singleton.2 (Value.kind_spellable plain)
    | reference name =>
      rw [kinds_reference]
      exact keyword (by decide) (keyword plain (List.forall_mem_nil _))
    | block body =>
      rw [kinds_block, List.cons_append]
      refine List.forall_mem_cons.2 ⟨trivial, List.forall_mem_append.2 ⟨?_, ?_⟩⟩
      · intro kind mem
        obtain ⟨t, there, mem⟩ := List.mem_flatMap.1 mem
        exact inner t there kind mem
      · exact List.forall_mem_singleton.2 trivial
    | print p =>
      rw [kinds_print]
      exact keyword (by decide) (p.spellable plain inner)
    | assign name p =>
      rw [kinds_assign]
      exact keyword (by decide) (keyword plain.1 (keyword (by decide) (p.spellable plain.2 inner)))
    | negate p =>
      rw [kinds_negate]
      exact keyword (by decide) (p.spellable plain inner)
    | choose condition whenTrue whenFalse =>
      have tested := condition.spellable plain.1 fun t mem => inner t (List.mem_append_left _ mem)
      have first := inner whenTrue (by simp [parts])
      have second : ∀ kind ∈ whenFalse.elim [] fun s => .word "else" :: s.kinds,
          kind.Spellable := by
        cases whenFalse with
        | none => exact List.forall_mem_nil _
        | some other => exact keyword (by decide) (inner other (by simp [parts]))
      rw [kinds_choose]
      exact keyword (by decide) (List.forall_mem_append.2
        ⟨List.forall_mem_append.2 ⟨tested, keyword (by decide) first⟩, second⟩)
    | attempt body clauses =>
      rw [kinds_attempt]
      refine keyword (by decide) (List.forall_mem_append.2 ⟨inner body (.head _), ?_⟩)
      intro kind mem
      obtain ⟨c, there, mem⟩ := List.mem_flatMap.1 mem
      have caught : ∀ kind ∈ .text c.1 :: c.2.kinds, kind.Spellable :=
        List.forall_mem_cons.2 ⟨trivial, inner c.2 (.tail _ (List.mem_map_of_mem there))⟩
      exact keyword (by decide) (keyword (by decide) caught) kind mem
    | throw p =>
      rw [kinds_throw]
      exact keyword (by decide) (p.spellable plain inner)
    | call routine =>
      rw [kinds_call]
      exact keyword (by decide) (keyword plain (List.forall_mem_nil _))
    | wait p =>
      rw [kinds_wait]
      exact keyword (by decide) (p.spellable plain inner)
    | host name action arguments =>
      rw [kinds_host]
      refine keyword plain.1 fun kind mem => ?_
      obtain ⟨p, there, mem⟩ := List.mem_flatMap.1 mem
      exact p.spellable (plain.2.2.2.2 p there)
        (fun t part => inner t (List.mem_flatMap.2 ⟨p, there, part⟩)) kind mem

end Statement

/-! ## Routines -/

def kindsOfRoutines (entries : List (String × Statement)) : List TokenKind :=
  entries.flatMap fun r => .word "def" :: .word r.1 :: .equals :: r.2.kinds

/-- The text of some routines. -/
def written (routines : Table Statement) : String :=
  String.ofList (TokenKind.spelledAll (kindsOfRoutines routines.toList))

/-- What a routine needs to be written. -/
structure WritableRoutine (actions : Table HostAction) (name : String) (s : Statement) : Prop where
  named : IsName name
  isBlock : s.IsBlock
  writable : s.Writable actions

section Routines

variable {actions : Table HostAction} {routines : Table Statement}

theorem spellable_kindsOfRoutines {entries : List (String × Statement)}
    (writable : ∀ r ∈ entries, WritableRoutine actions r.1 r.2) :
    ∀ kind ∈ kindsOfRoutines entries, kind.Spellable := by
  intro kind mem
  obtain ⟨r, there, mem⟩ := List.mem_flatMap.1 mem
  have h := writable r there
  have body : ∀ kind ∈ r.2.kinds, kind.Spellable := Statement.spellable h.writable
  simp only [List.mem_cons] at mem
  rcases mem with rfl | rfl | rfl | mem
  · exact (by decide : IsName "def")
  · exact h.named
  · trivial
  · exact body kind mem

theorem defines_kindsOfRoutines {entries : List (String × Statement)}
    (writable : ∀ r ∈ entries, WritableRoutine actions r.1 r.2) (after : List TokenKind) :
    ∃ list : Definitions, Defines actions list (kindsOfRoutines entries ++ after) after ∧
      list.map (fun d => (d.1, Statement.block d.2)) =
        entries.map fun r => (r.1, r.2.compiled) := by
  induction entries with
  | nil => exact ⟨[], .done, rfl⟩
  | cons r rest ih =>
    obtain ⟨name, s⟩ := r
    obtain ⟨list, defines, same⟩ := ih fun r mem => writable r (.tail _ mem)
    have h := writable (name, s) (.head _)
    have read := Statement.reads h.writable (kindsOfRoutines rest ++ after) (.inl h.isBlock)
    obtain ⟨body, rfl⟩ : ∃ body, s = .block body := by
      cases s with
      | block body => exact ⟨body, rfl⟩
      | _ => exact h.isBlock.elim
    rw [Statement.compiled_block, Statement.kinds_block] at read
    cases read with
    | block inner =>
      refine ⟨(name, body.map Statement.compiled) :: list, ?_, by simp [same]⟩
      have eq : kindsOfRoutines ((name, .block body) :: rest) =
          .word "def" :: .word name :: .equals :: (Statement.block body).kinds ++
            kindsOfRoutines rest := rfl
      rw [eq, Statement.kinds_block, List.append_assoc]
      exact .more inner defines

theorem link_eq_ok {list : Definitions}
    (same : list.map (fun d => (d.1, Statement.block d.2)) = routines.entries) :
    link .empty list = .ok routines := by
  have names : list.map (·.1) = routines.entries.map (·.1) := by
    rw [← same, List.map_map]
    rfl
  have distinct : (list.map (·.1)).Nodup := by
    rw [names]
    exact List.pairwise_map.2 (routines.sorted.imp fun lt => String.ne_of_lt lt)
  obtain ⟨table, linked⟩ : ∃ table, link .empty list = .ok table :=
    link_ok_iff.2 ⟨distinct, fun d _ => rfl⟩
  have eq : table = routines := by
    apply Table.ext_get?
    intro name
    apply Option.ext
    intro s
    rw [get?_link linked, ← routines.mem_entries_iff name s, ← same]
    simp only [Table.get?_empty, reduceCtorEq, false_or, List.mem_map, Prod.mk.injEq]
    constructor
    · rintro ⟨body, mem, rfl⟩
      exact ⟨(name, body), mem, rfl, rfl⟩
    · rintro ⟨⟨_, body⟩, mem, rfl, rfl⟩
      exact ⟨body, mem, rfl⟩
  rw [linked, eq]

theorem resolved_compiled (h : Resolved routines) :
    Resolved (routines.map fun _ s => s.compiled) := by
  intro name s found routine called
  rw [Table.get?_map, Option.map_eq_some_iff] at found
  obtain ⟨s, found, rfl⟩ := found
  rw [Statement.calls_compiled] at called
  have known := h name s found routine called
  simpa [Table.contains] using known

/-- Compiling the text of some routines gives those routines. A literal that stands where the
compiler converts one is converted; routines in which there is none are what the compiler gives. -/
theorem written_compiles {engine : Engine} {namespaces : List String}
    (visible : engine.actions namespaces = .ok actions) (nonempty : routines.entries ≠ [])
    (writable : ∀ name s, routines.get? name = some s → WritableRoutine actions name s)
    (resolved : Resolved routines) :
    engine.compile (written routines) namespaces =
        .ok ⟨written routines, namespaces, routines.map fun _ s => s.compiled⟩ ∧
      ((∀ name s, routines.get? name = some s → s.Fixed) →
        engine.compile (written routines) namespaces =
          .ok ⟨written routines, namespaces, routines⟩) := by
  have writable : ∀ r ∈ routines.entries, WritableRoutine actions r.1 r.2 := fun r mem =>
    writable r.1 r.2 ((Table.mem_entries_iff _ _ _).1 mem)
  have scans : Scans (written routines).toList (kindsOfRoutines routines.entries) := by
    rw [written, String.toList_ofList]
    exact scans_spelledAll (spellable_kindsOfRoutines writable)
  have starts : (kindsOfRoutines routines.entries).head? = some (.word "def") := by
    obtain ⟨r, rest, eq⟩ := List.exists_cons_of_ne_nil nonempty
    rw [eq]
    rfl
  obtain ⟨list, defines, same⟩ := defines_kindsOfRoutines writable [.endOfSource]
  have compiles : engine.compile (written routines) namespaces =
      .ok ⟨written routines, namespaces, routines.map fun _ s => s.compiled⟩ :=
    (Engine.compile_routines_iff scans starts).2 ⟨rfl, rfl, actions, list, visible, defines,
      link_eq_ok same, resolved_compiled resolved⟩
  refine ⟨compiles, fun fixed => ?_⟩
  have unchanged : (routines.map fun _ s => s.compiled) = routines := by
    apply Table.ext_get?
    intro name
    rw [Table.get?_map]
    cases found : routines.get? name with
    | none => rfl
    | some s => rw [Option.map_some, Statement.compiled_eq_self (fixed name s found)]
  rw [compiles, unchanged]

end Routines

def ringIfLoud : Statement :=
  .block [.choose (.deferred (.host "pick" StandardActions.pick
      [.deferred (.reference "loud"), .constant (.number (.whole (.ofInt64 (-5)))),
        .constant .null]))
    (.block [.call "ring"]) (some (.block []))]

/-- Rings a bell that fails, and says so. -/
def ring : Statement :=
  .block [.attempt (.block [.throw (.deferred (.reference "noise"))])
    [("*", .block [.print (.constant "a \"bell\"\n")])]]

def bells : Table Statement := (Table.empty.insert "main" ringIfLoud).insert "ring" ring

section Bells

open Statement

variable {actions : Table HostAction}

theorem writable_ring : WritableRoutine actions "ring" ring := by
  have isName : IsName "noise" := by decide
  refine ⟨by decide, trivial, ?_⟩
  simp [ring, writable_iff (s := .block _), writable_iff (s := .attempt ..),
    writable_iff (s := .throw _), writable_iff (s := .reference _), writable_iff (s := .print _),
    parts, Param.statements, Statement.Plain, IsBlock, Param.Plain, Value.Plain, Literal.literal,
    isName]

theorem writable_ringIfLoud (pick : actions.get? "pick" = some StandardActions.pick) :
    WritableRoutine actions "main" ringIfLoud := by
  have isName : IsName "pick" ∧ IsName "loud" ∧ IsName "ring" := by decide
  have action : Keyword.ofWord? "pick" = none ∧ 3 = StandardActions.pick.arity := by decide
  have number : (Whole.ofInt64 (-5)).val < 0x8000000000000000 := by decide
  refine ⟨by decide, trivial, ?_⟩
  simp [ringIfLoud, writable_iff (s := .block _), writable_iff (s := .choose ..),
    writable_iff (s := .host ..), writable_iff (s := .call _), writable_iff (s := .reference _),
    parts, Param.statements, Statement.Plain, IsBlock, Param.Plain, Value.Plain, Literal.literal,
    isName, action, number, pick]

theorem fixed_ring : ring.Fixed := by
  simp [ring, fixed_iff (s := .block _), fixed_iff (s := .attempt ..), fixed_iff (s := .throw _),
    fixed_iff (s := .reference _), fixed_iff (s := .print _), parts, Param.statements, Converted,
    Param.Fixed]

theorem fixed_ringIfLoud : ringIfLoud.Fixed := by
  simp [ringIfLoud, fixed_iff (s := .block _), fixed_iff (s := .choose ..),
    fixed_iff (s := .host ..), fixed_iff (s := .call _), fixed_iff (s := .reference _), parts,
    Param.statements, Converted, Param.Fixed]

end Bells

/-- The text of the routines, and what it compiles to. -/
theorem written_bells_compile : written bells =
      "<def> <main> = \x7b <if> <pick> <get> <loud> -5 <null> <then> \x7b <call> <ring> \x7d " ++
      "<else> \x7b \x7d \x7d <def> <ring> = \x7b <try> \x7b <throw> <get> <noise> \x7d " ++
      "<catch> <with> \"*\" \x7b <print> \"a \\\"bell\\\"\\n\" \x7d \x7d " ∧
    StandardActions.engine.compile (written bells) ["host"] =
      .ok ⟨written bells, ["host"], bells⟩ := by
  have known : ∃ actions, StandardActions.engine.actions ["host"] = .ok actions :=
    Engine.actions_ok_iff.2 (by decide +kernel)
  obtain ⟨actions, visible⟩ := known
  have pick : actions.get? "pick" = some StandardActions.pick := Engine.get?_actions visible
  have cases {name : String} {s : Statement} (found : bells.get? name = some s) :
      name = "ring" ∧ s = ring ∨ name = "main" ∧ s = ringIfLoud := by
    rw [bells, Table.get?_insert, Table.get?_insert] at found
    grind [Table.get?_empty]
  have writable (name) (s) (found : bells.get? name = some s) :
      WritableRoutine actions name s := by
    rcases cases found with ⟨rfl, rfl⟩ | ⟨rfl, rfl⟩
    · exact writable_ring
    · exact writable_ringIfLoud pick
  have fixed (name) (s) (found : bells.get? name = some s) : s.Fixed := by
    rcases cases found with ⟨rfl, rfl⟩ | ⟨rfl, rfl⟩
    · exact fixed_ring
    · exact fixed_ringIfLoud
  have resolved : Resolved bells := find?_unresolved.1 (by decide +kernel)
  have some : bells.entries ≠ [] := by decide +kernel
  exact ⟨by decide +kernel, (written_compiles visible some writable resolved).2 fixed⟩

end ScriptHost
