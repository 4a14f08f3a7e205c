import ScriptHost.Proofs.Script.Compiling
import ScriptHost.Proofs.Script.Extending
import ScriptHost.Proofs.Script.Terms
/-!
# What sources tell

`Grammar.Tells actions wording before after` is the grammar of `Grammar.Reads` with terms in place
of statements: what tokens tell, with every argument as it is written. What the readers make of a
source is what is compiled of that, and does what the terms do.

**Results.**
* `Grammar.Tells.reads`, `Grammar.Reads.isTold`: the phrases that are read are those that are
  compiled of a wording.
* `Grammar.routines_told`: so are the routines of a source.
* `narrowing_is_unobservable`: a unit does what its source tells, run with nothing converted.
-/
namespace ScriptHost

open Term

namespace Grammar

/-! ## Wordings -/

/-- What tokens may say. -/
inductive Wording where
  | statement (t : Term)
  /-- The statements of a block and the brace that closes it. -/
  | body (list : List Term)
  | clauses (list : List (String × Term))
  | arguments (count : Nat) (list : List Term)

def Wording.compile : Wording → Phrase
  | statement t => .statement t.compile
  | body list => .body (compileAll list)
  | clauses list => .clauses (compileClauses list)
  | arguments count list => .arguments count (compileArguments list)

/-- The tokens start by saying this, and what follows is left. -/
inductive Tells (actions : Table HostAction) : Wording → List TokenKind → List TokenKind → Prop
  | block {body rest after} : Tells actions (.body body) rest after →
      Tells actions (.statement (.block body)) (.openBrace :: rest) after
  | text {content after} :
      Tells actions (.statement (.literal (.string content))) (.text content :: after) after
  | integer {n after} :
      Tells actions (.statement (.literal (.number (.whole (Whole.ofInt64 n)))))
        (.integer n :: after) after
  | decimal {x after} : Tells actions (.statement (.literal (Value.ofBinary64 x)))
      (.decimal x :: after) after
  | reference {name after} :
      Tells actions (.statement (.reference name)) (.reference name :: after) after
  | literal {word value after} : Keyword.ofWord? word = some (.literal value) →
      Tells actions (.statement (.literal value)) (.word word :: after) after
  | print {word line rest after} : Keyword.ofWord? word = some .print →
      Tells actions (.statement line) rest after →
      Tells actions (.statement (.print line)) (.word word :: rest) after
  | assign {word name value rest after} : Keyword.ofWord? word = some .assign →
      Tells actions (.statement value) rest after →
      Tells actions (.statement (.assign name value))
        (.word word :: .word name :: .word "to" :: rest) after
  | fetch {word name after} : Keyword.ofWord? word = some .fetch →
      Tells actions (.statement (.reference name)) (.word word :: .word name :: after) after
  | negate {word value rest after} : Keyword.ofWord? word = some .negate →
      Tells actions (.statement value) rest after →
      Tells actions (.statement (.negate value)) (.word word :: rest) after
  | choose {word condition whenTrue rest middle after} : Keyword.ofWord? word = some .choose →
      Tells actions (.statement condition) rest (.word "then" :: middle) →
      Tells actions (.statement whenTrue) middle after →
      after.head? ≠ some (.word "else") →
      Tells actions (.statement (.choose condition whenTrue none)) (.word word :: rest) after
  | chooseElse {word condition whenTrue whenFalse rest middle last after} :
      Keyword.ofWord? word = some .choose →
      Tells actions (.statement condition) rest (.word "then" :: middle) →
      Tells actions (.statement whenTrue) middle (.word "else" :: last) →
      Tells actions (.statement whenFalse) last after →
      Tells actions (.statement (.choose condition whenTrue (some whenFalse)))
        (.word word :: rest) after
  | attempt {word body clauses rest middle after} : Keyword.ofWord? word = some .attempt →
      Tells actions (.statement body) rest middle →
      Tells actions (.clauses clauses) middle after →
      clauses ≠ [] →
      Tells actions (.statement (.attempt body clauses)) (.word word :: rest) after
  | throw {word message rest after} : Keyword.ofWord? word = some .throw →
      Tells actions (.statement message) rest after →
      Tells actions (.statement (.throw message)) (.word word :: rest) after
  | call {word routine after} : Keyword.ofWord? word = some .call →
      Tells actions (.statement (.call routine)) (.word word :: .word routine :: after) after
  | wait {word milliseconds rest after} : Keyword.ofWord? word = some .wait →
      Tells actions (.statement milliseconds) rest after →
      Tells actions (.statement (.wait milliseconds)) (.word word :: rest) after
  | host {word action arguments rest after} : Keyword.ofWord? word = none →
      actions.get? word = some action →
      Tells actions (.arguments action.arity arguments) rest after →
      Tells actions (.statement (.host word action arguments)) (.word word :: rest) after
  | bodyEnd {after} : Tells actions (.body []) (.closeBrace :: after) after
  | bodyMore {t list before middle after} :
      Tells actions (.statement t) before middle →
      Tells actions (.body list) middle after →
      Tells actions (.body (t :: list)) before after
  | clausesEnd {after} : after.head? ≠ some (.word "catch") →
      Tells actions (.clauses []) after after
  | clausesMore {kind pattern body list rest middle after} : patternOf? kind = some pattern →
      Tells actions (.statement body) rest middle →
      Tells actions (.clauses list) middle after →
      Tells actions (.clauses ((pattern, body) :: list))
        (.word "catch" :: .word "with" :: kind :: rest) after
  | argumentsEnd {after} : Tells actions (.arguments 0 []) after after
  | argumentsMore {count t list before middle after} :
      Tells actions (.statement t) before middle →
      Tells actions (.arguments count list) middle after →
      Tells actions (.arguments (count + 1) (t :: list)) before after

variable {actions : Table HostAction} {before after : List TokenKind}

/-- What tokens say is read of them, compiled. -/
theorem Tells.reads {wording : Wording} (h : Tells actions wording before after) :
    Reads actions wording.compile before after := by
  induction h with
  | block _ ih => exact .block ih
  | text => exact .text
  | integer => exact .integer
  | decimal => exact .decimal
  | reference => exact .reference
  | literal keyword => exact .literal keyword
  | print keyword _ ih => exact .print keyword ih
  | assign keyword _ ih => exact .assign keyword ih
  | fetch keyword => exact .fetch keyword
  | negate keyword _ ih => exact .negate keyword ih
  | choose keyword _ _ notElse ihCondition ihTrue =>
    exact .choose keyword ihCondition ihTrue notElse
  | chooseElse keyword _ _ _ ihCondition ihTrue ihFalse =>
    exact .chooseElse keyword ihCondition ihTrue ihFalse
  | @attempt _ _ clauses _ _ _ keyword _ _ some ihBody ihClauses =>
    refine .attempt keyword ihBody ihClauses ?_
    cases clauses with
    | nil => exact absurd rfl some
    | cons clause rest => exact List.cons_ne_nil _ _
  | throw keyword _ ih => exact .throw keyword ih
  | call keyword => exact .call keyword
  | wait keyword _ ih => exact .wait keyword ih
  | host notKeyword known _ ih => exact .host notKeyword known ih
  | bodyEnd => exact .bodyEnd
  | bodyMore _ _ ihFirst ihList => exact .bodyMore ihFirst ihList
  | clausesEnd notCatch => exact .clausesEnd notCatch
  | clausesMore pattern _ _ ihBody ihList => exact .clausesMore pattern ihBody ihList
  | argumentsEnd => exact .argumentsEnd
  | argumentsMore _ _ ihFirst ihList => exact .argumentsMore ihFirst ihList

/-- The tokens say something that this is compiled of. -/
def Phrase.IsTold (actions : Table HostAction) (before after : List TokenKind) : Phrase → Prop
  | .statement s => ∃ t, Tells actions (.statement t) before after ∧ t.compile = s
  | .body list => ∃ terms, Tells actions (.body terms) before after ∧ compileAll terms = list
  | .clauses list => ∃ terms, Tells actions (.clauses terms) before after ∧
      compileClauses terms = list
  | .arguments count list => ∃ terms, Tells actions (.arguments count terms) before after ∧
      compileArguments terms = list

/-- What is read of tokens is compiled of what they say. -/
theorem Reads.isTold {phrase : Phrase} (h : Reads actions phrase before after) :
    phrase.IsTold actions before after := by
  induction h with
  | block _ ih =>
    obtain ⟨body, told, rfl⟩ := ih
    exact ⟨_, .block told, rfl⟩
  | text => exact ⟨_, .text, rfl⟩
  | integer => exact ⟨_, .integer, rfl⟩
  | decimal => exact ⟨_, .decimal, rfl⟩
  | reference => exact ⟨_, .reference, rfl⟩
  | literal keyword => exact ⟨_, .literal keyword, rfl⟩
  | print keyword _ ih =>
    obtain ⟨line, told, rfl⟩ := ih
    exact ⟨_, .print keyword told, rfl⟩
  | assign keyword _ ih =>
    obtain ⟨value, told, rfl⟩ := ih
    exact ⟨_, .assign keyword told, rfl⟩
  | fetch keyword => exact ⟨_, .fetch keyword, rfl⟩
  | negate keyword _ ih =>
    obtain ⟨value, told, rfl⟩ := ih
    exact ⟨_, .negate keyword told, rfl⟩
  | choose keyword _ _ notElse ihCondition ihTrue =>
    obtain ⟨condition, tested, rfl⟩ := ihCondition
    obtain ⟨whenTrue, chosen, rfl⟩ := ihTrue
    exact ⟨_, .choose keyword tested chosen notElse, rfl⟩
  | chooseElse keyword _ _ _ ihCondition ihTrue ihFalse =>
    obtain ⟨condition, tested, rfl⟩ := ihCondition
    obtain ⟨whenTrue, chosen, rfl⟩ := ihTrue
    obtain ⟨whenFalse, otherwise, rfl⟩ := ihFalse
    exact ⟨_, .chooseElse keyword tested chosen otherwise, rfl⟩
  | attempt keyword _ _ some ihBody ihClauses =>
    obtain ⟨body, guarded, rfl⟩ := ihBody
    obtain ⟨clauses, handlers, rfl⟩ := ihClauses
    refine ⟨_, .attempt keyword guarded handlers ?_, rfl⟩
    rintro rfl
    exact some rfl
  | throw keyword _ ih =>
    obtain ⟨message, told, rfl⟩ := ih
    exact ⟨_, .throw keyword told, rfl⟩
  | call keyword => exact ⟨_, .call keyword, rfl⟩
  | wait keyword _ ih =>
    obtain ⟨milliseconds, told, rfl⟩ := ih
    exact ⟨_, .wait keyword told, rfl⟩
  | host notKeyword known _ ih =>
    obtain ⟨arguments, told, rfl⟩ := ih
    exact ⟨_, .host notKeyword known told, rfl⟩
  | bodyEnd => exact ⟨_, .bodyEnd, rfl⟩
  | bodyMore _ _ ihFirst ihList =>
    obtain ⟨first, told, rfl⟩ := ihFirst
    obtain ⟨list, others, rfl⟩ := ihList
    exact ⟨_, .bodyMore told others, rfl⟩
  | clausesEnd notCatch => exact ⟨_, .clausesEnd notCatch, rfl⟩
  | clausesMore pattern _ _ ihBody ihList =>
    obtain ⟨body, told, rfl⟩ := ihBody
    obtain ⟨list, others, rfl⟩ := ihList
    exact ⟨_, .clausesMore pattern told others, rfl⟩
  | argumentsEnd => exact ⟨_, .argumentsEnd, rfl⟩
  | argumentsMore _ _ ihFirst ihList =>
    obtain ⟨first, told, rfl⟩ := ihFirst
    obtain ⟨list, others, rfl⟩ := ihList
    exact ⟨_, .argumentsMore told others, rfl⟩

/-! ## Sources -/

/-- The tokens are bare statements that say this, up to the end of the source. -/
inductive TellsBare (actions : Table HostAction) : List Term → List TokenKind → Prop
  | done {last} : TellsBare actions [] (.endOfSource :: last)
  | more {t list front middle} : Tells actions (.statement t) front middle →
      TellsBare actions list middle → TellsBare actions (t :: list) front

/-- The tokens are definitions of routines that say this, up to the end of the source. -/
inductive TellsRoutines (actions : Table HostAction) :
    List (String × List Term) → List TokenKind → Prop
  | done {last} : TellsRoutines actions [] (.endOfSource :: last)
  | more {name body list rest middle} : Tells actions (.body body) rest middle →
      TellsRoutines actions list middle →
      TellsRoutines actions ((name, body) :: list)
        (.word "def" :: .word name :: .equals :: .openBrace :: rest)

/-- The tokens of a source tell this program. -/
inductive TellsProgram (actions : Table HostAction) : Table Term → List TokenKind → Prop
  | bare {list tokens} : tokens.head? ≠ some (.word "def") → TellsBare actions list tokens →
      TellsProgram actions (Table.empty.insert mainRoutine (.block list)) tokens
  | routines {list tokens} : tokens.head? = some (.word "def") →
      TellsRoutines actions list tokens →
      TellsProgram actions (.ofList (list.map fun d => (d.1, .block d.2))) tokens

theorem TellsBare.reads {list : List Term} {kinds' : List TokenKind}
    (h : TellsBare actions list kinds') : ∀ tokens, kinds tokens = kinds' →
      statements actions tokens = .ok (compileAll list) := by
  induction h with
  | done =>
    intro tokens eq
    obtain ⟨token, rest, rfl, isEnd, -⟩ := kinds_eq_cons.1 eq
    rw [statements]
    simp [first, isEnd, compileAll]
  | more told _ ih =>
    intro tokens eq
    obtain ⟨rest, made, left⟩ := told.reads.makes tokens eq
    obtain ⟨kind, others, starts, -, notEnd⟩ := told.reads.starts
    obtain ⟨token, others, rfl, rfl, -⟩ := kinds_eq_cons.1 (eq.trans starts)
    rw [statements, first_cons notEnd]
    simp only
    rw [made, ok_bind, ih rest.val left]
    rfl

theorem statements_told (tokens : List Token) {list : List Statement}
    (h : statements actions tokens = .ok list) (ends : .endOfSource ∈ kinds tokens) :
    ∃ terms, TellsBare actions terms (kinds tokens) := by
  rw [statements] at h
  split at h
  · rename_i token none
    have isEnd := first_eq_none_iff.1 (congrArg Prod.snd none)
    cases tokens with
    | nil => cases ends
    | cons head rest =>
      have isEnd : head.kind = .endOfSource := isEnd _ rfl
      exact ⟨[], by rw [kinds_cons, isEnd]; exact .done⟩
  · obtain ⟨⟨read, behind⟩, made, h⟩ := bind_eq_ok.1 h
    obtain ⟨others, madeOthers, -⟩ := bind_eq_ok.1 h
    have reads : Reads actions (.statement read) (kinds tokens) (kinds behind.val) :=
      reads_iff.2 ⟨behind, made, rfl⟩
    obtain ⟨terms, others⟩ := statements_told behind.val madeOthers (reads.keeps_end ends)
    obtain ⟨t, told, -⟩ := reads.isTold
    exact ⟨t :: terms, .more told others⟩
termination_by tokens.length
decreasing_by exact behind.property

theorem TellsRoutines.defines {list : List (String × List Term)} {tokens : List TokenKind}
    (h : TellsRoutines actions list tokens) :
    ∃ last, Defines actions (list.map fun d => (d.1, compileAll d.2)) tokens
      (.endOfSource :: last) := by
  induction h with
  | done => exact ⟨_, .done⟩
  | more told _ ih =>
    obtain ⟨last, defines⟩ := ih
    exact ⟨last, .more told.reads defines⟩

theorem Defines.told {list : Definitions} {last : List TokenKind}
    (h : Defines actions list before (.endOfSource :: last)) :
    ∃ terms, TellsRoutines actions terms before := by
  generalize eq : TokenKind.endOfSource :: last = behind at h
  induction h with
  | done =>
    cases eq
    exact ⟨[], .done⟩
  | more reads _ ih =>
    obtain ⟨terms, others⟩ := ih eq
    obtain ⟨body, told, -⟩ := reads.isTold
    exact ⟨_, .more told others⟩

theorem link_eq_foldl {list : Definitions} : ∀ {before table : Table Statement},
    link before list = .ok table →
      table = list.foldl (fun table d => table.insert d.1 (.block d.2)) before := by
  induction list with
  | nil =>
    intro before table linked
    cases linked
    rfl
  | cons d rest ih =>
    intro before table linked
    obtain ⟨name, body⟩ := d
    rw [link] at linked
    split at linked
    · cases linked
    · exact ih linked

theorem compileTable_insert (program : Table Term) (name : String) (t : Term) :
    compileTable (program.insert name t) = (compileTable program).insert name t.compile := by
  refine Table.ext_get? fun other => ?_
  simp only [compileTable, Table.get?_map, Table.get?_insert]
  split
  · rfl
  · rfl

theorem compileTable_foldl (list : List (String × List Term)) : ∀ program : Table Term,
    compileTable ((list.map fun d => (d.1, Term.block d.2)).foldl
        (fun table d => table.insert d.1 d.2) program) =
      (list.map fun d => (d.1, compileAll d.2)).foldl
        (fun table d => table.insert d.1 (.block d.2)) (compileTable program) := by
  induction list with
  | nil => exact fun _ => rfl
  | cons d rest ih =>
    intro program
    simp only [List.map_cons, List.foldl_cons]
    rw [ih, compileTable_insert]
    rfl

/-- A source tells a program, and the routines that are made of it are compiled of what it tells. -/
theorem routines_told {tokens : List Token} {blocks : Table Statement}
    (h : routines actions tokens = .ok blocks) (ends : .endOfSource ∈ kinds tokens) :
    (∃ program, TellsProgram actions program (kinds tokens)) ∧
      ∀ program, TellsProgram actions program (kinds tokens) → blocks = compileTable program := by
  by_cases starts : (kinds tokens).head? = some (.word "def")
  · rw [routines_of_def starts] at h
    obtain ⟨defined, made, checked⟩ := bind_eq_ok.1 h
    -- looking up the calls changes no routine
    obtain ⟨rfl, -⟩ := checked_ok_iff.1 checked
    constructor
    · obtain ⟨list, last, defines⟩ := definitions_sound _ _ made ends
      obtain ⟨terms, told⟩ := defines.told
      exact ⟨_, .routines starts told⟩
    · intro program told
      cases told with
      | bare notDef => exact absurd starts notDef
      | @routines list _ _ told =>
        obtain ⟨last, defines⟩ := told.defines
        rw [Table.ofList, compileTable_foldl]
        exact link_eq_foldl ((definitions_eq defines .empty tokens rfl).symm.trans made)
  · rw [routines_of_bare starts] at h
    obtain ⟨list, read, checked⟩ := bind_eq_ok.1 h
    obtain ⟨rfl, -⟩ := checked_ok_iff.1 checked
    constructor
    · obtain ⟨terms, told⟩ := statements_told tokens read ends
      exact ⟨_, .bare starts told⟩
    · intro program told
      cases told with
      | routines isDef => exact absurd isDef starts
      | bare _ told =>
        rw [told.reads tokens rfl] at read
        cases read
        rw [compileTable_insert]
        rfl

end Grammar

/-- A source tells a program under some namespaces of an engine. -/
def Engine.Tells (engine : Engine) (source : String) (namespaces : List String)
    (program : Table Term) : Prop :=
  ∃ actions tokens, engine.actions namespaces = .ok actions ∧ tokenize source = .ok tokens ∧
    Grammar.TellsProgram actions program (Grammar.kinds tokens)

/-- It cannot be observed that literals are converted when a source is compiled. Every source that
compiles tells a program; and every block of it, in every context, gives the result or error, the
variables and the output, lines and pauses, that the program gives when it is run as it is told,
each argument evaluated and converted whenever it is reached. -/
theorem narrowing_is_unobservable (engine : Engine) (source : String) (namespaces : List String)
    (unit : CompiledUnit) :
    (engine.compile source namespaces = .ok unit →
      ∃ program, engine.Tells source namespaces program) ∧
    (∀ program, engine.compile source namespaces = .ok unit →
      engine.Tells source namespaces program →
      ∀ block context, unit.invoke block context = Term.invoke program block context) ∧
    (∀ program, unit.blocks = compileTable program →
      ∀ block context, unit.invoke block context = Term.invoke program block context) := by
  have told (compiled : engine.compile source namespaces = .ok unit) :
      ∃ actions tokens, engine.actions namespaces = .ok actions ∧ tokenize source = .ok tokens ∧
        (∃ program, Grammar.TellsProgram actions program (Grammar.kinds tokens)) ∧
        ∀ program, Grammar.TellsProgram actions program (Grammar.kinds tokens) →
          unit.blocks = compileTable program := by
    obtain ⟨-, -, actions, tokens, visible, scanned, made⟩ := Engine.compile_ok_iff.1 compiled
    obtain ⟨front, eq, -⟩ := Scanner.all_sound scanned
    exact ⟨actions, tokens, visible, scanned, Grammar.routines_told made (by
      rw [show Grammar.kinds tokens = front ++ [.endOfSource] from eq]
      simp)⟩
  refine ⟨fun compiled => ?_, fun program compiled told' => ?_, fun program =>
    invoke_compiled program⟩
  · obtain ⟨actions, tokens, visible, scanned, ⟨program, told⟩, -⟩ := told compiled
    exact ⟨program, actions, tokens, visible, scanned, told⟩
  · obtain ⟨actions, tokens, visible, scanned, -, all⟩ := told compiled
    obtain ⟨actions', tokens', visible', scanned', told'⟩ := told'
    cases visible.symm.trans visible'
    cases scanned.symm.trans scanned'
    exact invoke_compiled program (all program told')

end ScriptHost
