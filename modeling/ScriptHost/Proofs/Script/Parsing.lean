import Mathlib.Logic.Function.Iterate
import ScriptHost.Proofs.Script.Converting
import ScriptHost.Proofs.Script.Phrase
/-!
# Compiling step by step

What compiling a source comes to is told by `tokenize` and `Grammar.routines`. A `Compilation` is
how far it has come: the text that is still to be scanned, or the tokens that are still to be read
with what is to be read next and what waits for it, or the calls that are still to be looked up. The
step to the next one, `Compilation.next`, looks at a few tokens and recurses on nothing.

**Weights.** Every token weighs more than all that can come to wait because of it, and so does every
character. An error weighs nothing, nor does a table of routines; everything else gets lighter with
each step. A statement weighs as much as it has calls, since they are looked up one by one.

**Results.**
* `Compilation.next_lighter`: a step makes a compilation lighter, unless it is done.
* `Compilation.done_of_weight`: it is done after as many steps as it weighs.
* `Compilation.iterate_within`: steps take tokens from the front, and never the end of a source.
-/
namespace ScriptHost

open Grammar

/-- What waits for a statement, from the inside out. -/
inductive Pending where
  /-- The statements of a source, of which these were read. -/
  | bare (read : List Statement)
  /-- A definition and the routines before it. -/
  | routine (before : Table Statement) (name : String)
  /-- The statements of a block, of which these were read. -/
  | body (read : List Statement) (outer : Pending)
  | print (outer : Pending)
  | assign (name : String) (outer : Pending)
  | negate (outer : Pending)
  | condition (outer : Pending)
  | whenTrue (tested : Statement) (outer : Pending)
  | whenFalse (tested chosen : Statement) (outer : Pending)
  | tried (word : Token) (outer : Pending)
  /-- A clause of a `try`, and the clauses before it. -/
  | handler (word : Token) (guarded : Statement) (read : List (String × Statement))
    (pattern : String) (outer : Pending)
  | throw (outer : Pending)
  | wait (outer : Pending)
  /-- An argument of a host action, the arguments before it and how many are missing after it. -/
  | argument (word : String) (action : HostAction) (read : List (Param Statement Value))
    (missing : Nat) (outer : Pending)

/-- How far compiling a source has come. -/
inductive Compilation where
  | scan (at_ : Cursor) (read : List Token)
  | bare (read : List Statement) (tokens : List Token)
  | definitions (before : Table Statement) (tokens : List Token)
  | statement (tokens : List Token) (pending : Pending)
  | body (read : List Statement) (tokens : List Token) (pending : Pending)
  | clauses (word : Token) (guarded : Statement) (read : List (String × Statement))
    (tokens : List Token) (pending : Pending)
  | arguments (word : String) (action : HostAction) (read : List (Param Statement Value))
    (missing : Nat) (tokens : List Token) (pending : Pending)
  /-- A statement was read. -/
  | made (s : Statement) (tokens : List Token) (pending : Pending)
  /-- These calls are still to be looked up. -/
  | check (calls : List String) (defined : Table Statement)
  | done (result : Except CompileError (Table Statement))

namespace Compilation

/-- Goes on with what was taken; an error is the end. -/
def andThen {α : Type} (taken : Except CompileError α) (next : α → Compilation) : Compilation :=
  match taken with
  | .error error => .done (.error error)
  | .ok a => next a

/-- Starts on the tokens of a source. -/
def parse (tokens : List Token) : Compilation :=
  match after? (.word "def") tokens with
  | some _ => .definitions .empty tokens
  | none => .bare [] tokens

def resolve (defined : Table Statement) : Compilation :=
  .check (defined.values.flatMap Statement.calls) defined

/-- Starts on what follows the word that a statement starts with. -/
def word (actions : Table HostAction) (token : Token) (word : String) (tokens : List Token)
    (pending : Pending) : Compilation :=
  match Keyword.ofWord? word with
  | some (.literal value) => .made (.literal value) tokens pending
  | some .print => .statement tokens (.print pending)
  | some .assign =>
    andThen (takeName "variable name" tokens) fun (name, rest) =>
      andThen (takeWord "to" rest.val) fun rest => .statement rest.val (.assign name pending)
  | some .fetch =>
    andThen (takeName "variable name" tokens) fun (name, rest) =>
      .made (.reference name) rest.val pending
  | some .negate => .statement tokens (.negate pending)
  | some .choose => .statement tokens (.condition pending)
  | some .attempt => .statement tokens (.tried token pending)
  | some .throw => .statement tokens (.throw pending)
  | some .call =>
    andThen (takeName "routine name" tokens) fun (routine, rest) =>
      .made (.call routine) rest.val pending
  | some .wait => .statement tokens (.wait pending)
  | some .define => .done (refuse token "'def' is only allowed at top level")
  | some .connective => .done (refuse token ("unexpected '" ++ word ++ "'"))
  | none =>
    match actions.get? word with
    | none => .done (.error (.unknownAction word token.place))
    | some action => .arguments word action [] action.arity tokens pending

/-- Hands a statement to what waits for it. -/
def resume (s : Statement) (tokens : List Token) : Pending → Compilation
  | .bare read => .bare (read ++ [s]) tokens
  | .routine before name =>
    if before.contains name then .done (.error (.duplicateRoutine name))
    else .definitions (before.insert name s) tokens
  | .body read outer => .body (read ++ [s]) tokens outer
  | .print outer => .made (.print s.toParam.narrow) tokens outer
  | .assign name outer => .made (.assign name s.toParam) tokens outer
  | .negate outer => .made (.negate s.toParam.narrow) tokens outer
  | .condition outer =>
    andThen (takeWord "then" tokens) fun rest => .statement rest.val (.whenTrue s outer)
  | .whenTrue tested outer =>
    match after? (.word "else") tokens with
    | none => .made (.choose tested.toParam.narrow s none) tokens outer
    | some rest => .statement rest.val (.whenFalse tested s outer)
  | .whenFalse tested chosen outer =>
    .made (.choose tested.toParam.narrow chosen (some s)) tokens outer
  | .tried word outer => .clauses word s [] tokens outer
  | .handler word guarded read pattern outer =>
    .clauses word guarded (read ++ [(pattern, s)]) tokens outer
  | .throw outer => .made (.throw s.toParam.narrow) tokens outer
  | .wait outer => .made (.wait s.toParam.narrow) tokens outer
  | .argument word action read missing outer =>
    .arguments word action (read ++ [s.toParam]) missing tokens outer

/-- The next step of a compilation; there is none once it is done. -/
def next (actions : Table HostAction) : Compilation → Compilation
  | .scan at_ read =>
    andThen (Scanner.next at_) fun (token, behind) =>
      if token.kind = .endOfSource then parse (read ++ [token]) else .scan behind (read ++ [token])
  | .bare read tokens =>
    match first tokens with
    | (_, none) => resolve (Table.empty.insert mainRoutine (.block read))
    | (_, some _) => .statement tokens (.bare read)
  | .definitions before tokens =>
    match first tokens with
    | (_, none) => resolve before
    | (_, some _) =>
      andThen (takeWord "def" tokens) fun rest =>
        andThen (takeName "routine name" rest.val) fun (name, rest) =>
          andThen (takeKind .equals "'='" rest.val) fun rest =>
            andThen (takeKind .openBrace "'\x7b'" rest.val) fun rest =>
              .body [] rest.val (.routine before name)
  | .statement tokens pending =>
    match first tokens with
    | (token, none) => .done (refuse token ("unexpected " ++ token.kind.described))
    | (token, some rest) =>
      match token.kind with
      | .openBrace => .body [] rest.val pending
      | .text content => .made (.literal (.string content)) rest.val pending
      | .integer n => .made (.literal (.number (.whole (Whole.ofInt64 n)))) rest.val pending
      | .decimal x => .made (.literal (Value.ofBinary64 x)) rest.val pending
      | .reference name => .made (.reference name) rest.val pending
      | .word name => word actions token name rest.val pending
      | kind => .done (refuse token ("unexpected " ++ kind.described))
  | .body read tokens pending =>
    match after? .closeBrace tokens with
    | some behind => .made (.block read) behind.val pending
    | none =>
      match first tokens with
      | (token, none) => .done (refuse token "unclosed '\x7b'")
      | (_, some _) => .statement tokens (.body read pending)
  | .clauses word guarded read tokens pending =>
    match after? (.word "catch") tokens with
    | none =>
      if read.isEmpty then .done (refuse word "'try' without 'catch'")
      else .made (.attempt guarded read) tokens pending
    | some rest =>
      andThen (takeWord "with" rest.val) fun rest =>
        andThen (takePattern rest.val) fun (pattern, rest) =>
          .statement rest.val (.handler word guarded read pattern pending)
  | .arguments word action read 0 tokens pending => .made (.host word action read) tokens pending
  | .arguments word action read (missing + 1) tokens pending =>
    .statement tokens (.argument word action read missing pending)
  | .made s tokens pending => resume s tokens pending
  | .check [] defined => .done (.ok defined)
  | .check (name :: calls) defined =>
    if defined.contains name then .check calls defined else .done (.error (.undefinedRoutine name))
  | .done result => .done result

end Compilation

/-! ## Weights -/

/-- How many calls some statements have. -/
def Statement.callCount (list : List Statement) : Nat := (list.flatMap calls).length

open Statement (callCount)

def Pending.weight : Pending → Nat
  | bare read => callCount read + 1
  | routine before _ => callCount before.values + 1
  | body read outer => callCount read + outer.weight + 1
  | print outer | assign _ outer | negate outer | condition outer | throw outer | wait outer =>
    outer.weight + 1
  | whenTrue tested outer => callCount [tested] + outer.weight + 1
  | whenFalse tested chosen outer => callCount [tested, chosen] + outer.weight + 1
  | tried _ outer => outer.weight + 2
  | handler _ guarded read _ outer => callCount (guarded :: read.map (·.2)) + outer.weight + 2
  | argument _ _ read _ outer => callCount (read.flatMap Param.statements) + outer.weight + 2

namespace Compilation

def weight : Compilation → Nat
  | scan at_ read => 5 * at_.rest.length + 4 * read.length + 7
  | bare read tokens => 4 * tokens.length + callCount read + 2
  | definitions before tokens => 4 * tokens.length + callCount before.values + 2
  | statement tokens pending => 4 * tokens.length + pending.weight
  | body read tokens pending => 4 * tokens.length + callCount read + pending.weight + 2
  | clauses _ guarded read tokens pending =>
    4 * tokens.length + callCount (guarded :: read.map (·.2)) + pending.weight + 3
  | arguments _ _ read _ tokens pending =>
    4 * tokens.length + callCount (read.flatMap Param.statements) + pending.weight + 3
  | made s tokens pending => 4 * tokens.length + callCount [s] + pending.weight + 2
  | check calls _ => calls.length + 1
  | done _ => 0

end Compilation

namespace Statement

@[simp] theorem callCount_nil : callCount [] = 0 := rfl

@[simp] theorem callCount_empty : callCount Table.empty.values = 0 := rfl

@[simp] theorem callCount_append (first second : List Statement) :
    callCount (first ++ second) = callCount first + callCount second := by
  simp [callCount]

theorem callCount_cons (s : Statement) (rest : List Statement) :
    callCount (s :: rest) = callCount [s] + callCount rest :=
  callCount_append [s] rest

/-- A statement has its own call and those of its parts. -/
theorem callCount_parts (s : Statement) :
    callCount [s] = s.callee?.toList.length + callCount s.parts := by
  rw [callCount, List.flatMap_singleton, calls_eq, List.length_append]
  rfl

@[simp] theorem callCount_literal (value : Value) : callCount [.literal value] = 0 := rfl

@[simp] theorem callCount_reference (name : String) : callCount [.reference name] = 0 := rfl

@[simp] theorem callCount_call (routine : String) : callCount [.call routine] = 1 := rfl

@[simp] theorem callCount_block (statements : List Statement) :
    callCount [.block statements] = callCount statements :=
  (callCount_parts _).trans (Nat.zero_add _)

/-- A literal, which is all that a parameter holds instead of a statement, has no calls. -/
@[simp] theorem callCount_toParam (s : Statement) :
    callCount s.toParam.statements = callCount [s] := by
  cases s <;> simp [callCount, toParam, Param.statements, calls]

@[simp] theorem callCount_narrow {α : Type} [FromValue α] (s : Statement) :
    callCount (s.toParam.narrow : Param Statement α).statements = callCount [s] := by
  rw [callCount, calls_narrow, callCount, List.flatMap_singleton]

theorem callCount_insert (table : Table Statement) (name : String) (s : Statement) :
    callCount (table.insert name s).values ≤ callCount table.values + callCount [s] := by
  obtain ⟨entries, sorted⟩ := table
  show callCount ((Table.insertEntry name s entries).map (·.2)) ≤
    callCount (entries.map (·.2)) + callCount [s]
  clear sorted
  induction entries with
  | nil => exact Nat.le_of_eq (Nat.zero_add _).symm
  | cons head rest ih =>
    obtain ⟨other, old⟩ := head
    rw [Table.insertEntry]
    split
    · simp only [List.map_cons]
      rw [callCount_cons s, Nat.add_comm]
    · simp only [List.map_cons] at ih ⊢
      rw [callCount_cons old]
      split
      · rw [List.map_cons, callCount_cons s]
        omega
      · rw [List.map_cons, callCount_cons old]
        omega

end Statement

open Statement

namespace Compilation

variable {actions : Table HostAction}

theorem weight_andThen {α : Type} {taken : Except CompileError α} {next : α → Compilation}
    {bound : Nat} (some : 0 < bound) (h : ∀ a, taken = .ok a → (next a).weight < bound) :
    (andThen taken next).weight < bound := by
  cases taken with
  | error => exact some
  | ok a => exact h a rfl

/-- A word outweighs what comes to wait for what follows it. -/
theorem word_lighter (actions : Table HostAction) (token : Token) (name : String)
    (tokens : List Token) (pending : Pending) :
    (word actions token name tokens pending).weight < 4 * tokens.length + pending.weight + 4 := by
  have positive : 0 < 4 * tokens.length + pending.weight + 4 := by omega
  unfold word
  split
  case h_3 | h_4 | h_9 =>
    refine weight_andThen positive fun named _ => ?_
    have := named.2.property
    first
      | refine weight_andThen positive fun rest _ => ?_
        have := rest.property
        simp only [weight, Pending.weight]
        omega
      | simp only [weight, callCount_reference, callCount_call]
        omega
  case h_13 =>
    split
    · exact positive
    · simp [weight]
  all_goals
    simp only [weight, Pending.weight, callCount_literal]
    omega

/-- A statement that was read is lighter than what waited for it and the statement. -/
theorem resume_lighter (s : Statement) (tokens : List Token) (pending : Pending) :
    (resume s tokens pending).weight <
      4 * tokens.length + callCount [s] + pending.weight + 2 := by
  have positive : 0 < 4 * tokens.length + callCount [s] + pending.weight + 2 := by omega
  cases pending with
  | bare read | body read =>
    simp only [resume, weight, Pending.weight, callCount_append]
    omega
  | routine before name =>
    rw [resume]
    split
    · exact positive
    · have := callCount_insert before name s
      simp only [weight, Pending.weight]
      omega
  | print outer | assign name outer | negate outer | throw outer | wait outer =>
    simp only [resume, weight, Pending.weight]
    rw [callCount_parts]
    simp only [callee?, parts, callCount_narrow, callCount_toParam, Option.toList_none,
      List.length_nil]
    omega
  | condition outer =>
    refine weight_andThen positive fun rest _ => ?_
    have := rest.property
    simp only [weight, Pending.weight]
    omega
  | whenTrue tested outer =>
    rw [resume]
    split
    · simp only [weight, Pending.weight]
      rw [callCount_parts]
      simp only [callee?, parts, callCount_append, callCount_narrow, Option.toList_none,
        List.length_nil]
      omega
    · rename_i rest _
      have := rest.property
      simp only [weight, Pending.weight, callCount_cons tested [s]]
      omega
  | whenFalse tested chosen outer =>
    simp only [resume, weight, Pending.weight]
    rw [callCount_parts, callCount_cons tested [chosen]]
    simp only [callee?, parts, callCount_append, callCount_narrow, Option.toList_none,
      Option.toList_some, callCount_cons chosen [s], List.length_nil]
    omega
  | tried word outer =>
    simp only [resume, weight, Pending.weight, List.map_nil]
    omega
  | handler word guarded read pattern outer =>
    simp only [resume, weight, Pending.weight, List.map_append, List.map_cons, List.map_nil,
      ← List.cons_append, callCount_append]
    omega
  | argument word action read missing outer =>
    simp only [resume, weight, Pending.weight, List.flatMap_append, List.flatMap_singleton,
      callCount_append, callCount_toParam]
    omega

/-- Every step makes a compilation lighter, unless it is done. -/
theorem next_lighter (actions : Table HostAction) (c : Compilation) (more : c.weight ≠ 0) :
    (next actions c).weight < c.weight := by
  have positive : 0 < c.weight := Nat.pos_of_ne_zero more
  cases c with
  | scan at_ read =>
    refine weight_andThen positive fun made step => ?_
    simp only
    -- a character weighs more than a token, and only the end of the source is made of none
    split
    · rw [parse]
      split
      · simp only [weight, List.length_append, List.length_singleton, callCount_empty]
        omega
      · simp only [weight, List.length_append, List.length_singleton, callCount_nil]
        omega
    · rename_i kind
      have := Scanner.next_shorter step kind
      simp only [weight, List.length_append, List.length_singleton]
      omega
  | bare read tokens =>
    rw [next]
    split
    · have main : callCount (Table.empty.insert mainRoutine (.block read)).values =
          callCount read := callCount_block read
      simp only [resolve, weight]
      rw [← callCount, main]
      omega
    · simp only [weight, Pending.weight]
      omega
  | definitions before tokens =>
    rw [next]
    split
    · simp only [resolve, weight, callCount]
      omega
    · refine weight_andThen positive fun rest _ => weight_andThen positive fun named _ =>
        weight_andThen positive fun equals _ => weight_andThen positive fun brace _ => ?_
      have := rest.property
      have := named.2.property
      have := equals.property
      have := brace.property
      simp only [weight, Pending.weight, callCount_nil]
      omega
  | statement tokens pending =>
    rw [next]
    split
    · exact positive
    · rename_i token rest _
      have := rest.property
      split
      case h_6 name _ =>
        have := word_lighter actions token name rest.val pending
        show _ < 4 * tokens.length + pending.weight
        omega
      case h_7 => exact positive
      all_goals
        simp only [weight, callCount_literal, callCount_reference, callCount_nil]
        omega
  | body read tokens pending =>
    rw [next]
    split
    · rename_i behind _
      have := behind.property
      simp only [weight, callCount_block]
      omega
    · split
      · exact positive
      · simp only [weight, Pending.weight]
        omega
  | clauses word guarded read tokens pending =>
    rw [next]
    split
    · split
      · exact positive
      · simp only [weight]
        rw [callCount_parts]
        simp [callee?, parts]
    · rename_i rest _
      refine weight_andThen positive fun rest' _ => weight_andThen positive fun pattern _ => ?_
      have := rest.property
      have := rest'.property
      have := pattern.2.property
      simp only [weight, Pending.weight]
      omega
  | arguments word action read missing tokens pending =>
    -- an action without arguments takes no token, so what waits is lighter than the list
    cases missing with
    | zero =>
      simp only [next, weight]
      rw [callCount_parts]
      simp [callee?, parts]
    | succ missing =>
      simp only [next, weight, Pending.weight]
      omega
  | made s tokens pending => exact resume_lighter s tokens pending
  | check calls defined =>
    cases calls with
    | nil => exact positive
    | cons name calls =>
      rw [next]
      split
      · simp [weight]
      · exact positive
  | done result => exact absurd rfl more

theorem weight_eq_zero {c : Compilation} (none : c.weight = 0) : ∃ result, c = .done result := by
  cases c with
  | done result => exact ⟨result, rfl⟩
  | statement tokens pending => cases pending <;> simp [weight, Pending.weight] at none
  | _ => simp [weight] at none

theorem iterate_done (result : Except CompileError (Table Statement)) (steps : Nat) :
    (next actions)^[steps] (.done result) = .done result :=
  Function.iterate_fixed rfl steps

/-- A compilation is done after as many steps as it weighs, and stays so. -/
theorem done_of_weight (actions : Table HostAction) (c : Compilation) {steps : Nat}
    (enough : c.weight ≤ steps) :
    ∃ result, (next actions)^[steps] c = .done result := by
  induction steps generalizing c with
  | zero => exact weight_eq_zero (Nat.le_zero.1 enough)
  | succ steps ih =>
    by_cases none : c.weight = 0
    · obtain ⟨result, rfl⟩ := weight_eq_zero none
      exact ⟨result, iterate_done result _⟩
    · have := next_lighter actions c none
      rw [Function.iterate_succ_apply]
      exact ih _ (by omega)

end Compilation

/-! ## Tokens that are left -/

namespace Grammar

def Leaves (tokens rest : List Token) : Prop :=
  ∃ taken, tokens = taken ++ rest ∧ ∀ token ∈ taken, token.kind ≠ .endOfSource

variable {tokens : List Token}

theorem Leaves.refl (tokens : List Token) : Leaves tokens tokens := ⟨[], rfl, nofun⟩

theorem Leaves.trans {middle rest : List Token} (first : Leaves tokens middle)
    (second : Leaves middle rest) : Leaves tokens rest := by
  obtain ⟨taken, rfl, inside⟩ := first
  obtain ⟨more, rfl, inside'⟩ := second
  exact ⟨taken ++ more, (List.append_assoc ..).symm, List.forall_mem_append.2 ⟨inside, inside'⟩⟩

theorem first_leaves {token : Token} {rest : Rest tokens} (h : first tokens = (token, some rest)) :
    Leaves tokens rest.val := by
  obtain ⟨eq, notEnd⟩ := first_eq_some h
  exact ⟨[token], eq, by simpa using notEnd⟩

theorem take_leaves {α : Type} {expected : String} {accept : TokenKind → Option α} {a : α}
    {rest : Rest tokens} (h : take expected accept tokens = .ok (a, rest)) :
    Leaves tokens rest.val := by
  unfold take at h
  split at h
  · rename_i starts
    split at h
    · cases h
      exact first_leaves starts
    · cases h
  · cases h

theorem takeKind_leaves {kind : TokenKind} {expected : String} {rest : Rest tokens}
    (h : takeKind kind expected tokens = .ok rest) : Leaves tokens rest.val := by
  obtain ⟨_, taken, rfl⟩ := map_eq_ok.1 h
  exact take_leaves taken

theorem after?_leaves {kind : TokenKind} {rest : Rest tokens} (h : after? kind tokens = some rest) :
    Leaves tokens rest.val := by
  unfold after? at h
  split at h
  · rename_i starts
    split at h
    · cases h
      exact first_leaves starts
    · cases h
  · cases h

end Grammar

namespace Compilation

variable {tokens rest : List Token}

/-- A compilation that has taken its tokens from the front of these. -/
def Within (tokens : List Token) : Compilation → Prop
  | scan .. => False
  | bare _ rest | definitions _ rest | statement rest _ | body _ rest _ | clauses _ _ _ rest _
  | arguments _ _ _ _ rest _ | made _ rest _ => Leaves tokens rest
  | check .. | done _ => True

theorem within_andThen {α : Type} {taken : Except CompileError α} {next : α → Compilation}
    (h : ∀ a, taken = .ok a → (next a).Within tokens) : (andThen taken next).Within tokens := by
  cases taken with
  | error => trivial
  | ok a => exact h a rfl

theorem word_within (actions : Table HostAction) (left : Leaves tokens rest) (token : Token)
    (name : String) (pending : Pending) : (word actions token name rest pending).Within tokens := by
  unfold word
  split
  case h_3 =>
    exact within_andThen fun _ named => within_andThen fun _ toward =>
      (left.trans (take_leaves named)).trans (takeKind_leaves toward)
  case h_4 | h_9 => exact within_andThen fun _ named => left.trans (take_leaves named)
  case h_11 | h_12 => trivial
  case h_13 =>
    split
    · trivial
    · exact left
  all_goals exact left

theorem resume_within (left : Leaves tokens rest) (s : Statement) (pending : Pending) :
    (resume s rest pending).Within tokens := by
  cases pending with
  | routine before name =>
    rw [resume]
    split
    · trivial
    · exact left
  | condition outer => exact within_andThen fun _ then_ => left.trans (takeKind_leaves then_)
  | whenTrue tested outer =>
    rw [resume]
    split
    · exact left
    · rename_i else_
      exact left.trans (after?_leaves else_)
  | _ => exact left

/-- A step takes tokens from the front, but never the end of the source. -/
theorem next_within {c : Compilation} (h : c.Within tokens) : (next actions c).Within tokens := by
  cases c with
  | scan at_ read => exact h.elim
  | bare read rest =>
    rw [next]
    split
    · trivial
    · exact h
  | definitions before rest =>
    rw [next]
    split
    · trivial
    · exact within_andThen fun _ define => within_andThen fun _ named =>
        within_andThen fun _ equals => within_andThen fun _ brace =>
          (((Leaves.trans h (takeKind_leaves define)).trans (take_leaves named)).trans
            (takeKind_leaves equals)).trans (takeKind_leaves brace)
  | statement rest pending =>
    rw [next]
    split
    · trivial
    · rename_i starts
      have left := Leaves.trans h (first_leaves starts)
      split
      case h_6 => exact word_within actions left _ _ pending
      case h_7 => trivial
      all_goals exact left
  | body read rest pending =>
    rw [next]
    split
    · rename_i closed
      exact Leaves.trans h (after?_leaves closed)
    · split
      · trivial
      · exact h
  | clauses word guarded read rest pending =>
    rw [next]
    split
    · split
      · trivial
      · exact h
    · rename_i catch_
      exact within_andThen fun _ with_ => within_andThen fun _ pattern =>
        ((Leaves.trans h (after?_leaves catch_)).trans (takeKind_leaves with_)).trans
          (take_leaves pattern)
  | arguments word action read missing rest pending =>
    cases missing with
    | zero => exact h
    | succ missing => exact h
  | made s rest pending => exact resume_within h s pending
  | check calls defined =>
    cases calls with
    | nil => trivial
    | cons name calls =>
      rw [next]
      split
      · trivial
      · trivial
  | done result => trivial

theorem iterate_within (actions : Table HostAction) {c : Compilation} (h : c.Within tokens)
    (steps : Nat) :
    ((next actions)^[steps] c).Within tokens := by
  induction steps with
  | zero => exact h
  | succ steps ih =>
    rw [Function.iterate_succ_apply']
    exact next_within ih

end Compilation
end ScriptHost
