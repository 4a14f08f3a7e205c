import ScriptHost.Proofs.Script.Phrase
/-!
# Sources made of routines

A source that starts with `def` is a list of definitions. `Grammar.Defines` relates them to the
kinds of the tokens; `Grammar.link` puts their names into one table, in which no name may stand
twice; the calls of a linked table are looked up once all names are known.

**Results.**
* `Grammar.definitions_eq`: reading definitions is linking what the grammar says they are.
* `Grammar.statements_body`: bare statements are read as the same statements between braces.
* `Grammar.link_ok_iff`, `Grammar.get?_link`: linking works exactly if all names differ, and
  yields exactly the routines that were defined.
* `Grammar.routines_of_def`, `Grammar.routines_of_bare`: the two ways of reading a source.
* `Grammar.routines_ok_iff`: what compiling such a source takes and gives.
* `Grammar.Defines.transport`: definitions stay the same under another action table that has the
  same host actions for them, whatever stands behind them.
-/
namespace ScriptHost.Grammar

/-- Routines by their names, in the order of the source. -/
abbrev Definitions := List (String × List Statement)

/-- The tokens start with definitions, and what follows them is left. -/
inductive Defines (actions : Table HostAction) : Definitions → List TokenKind →
    List TokenKind → Prop
  | done {after} : Defines actions [] after after
  | more {name body list rest middle after} :
      Reads actions (.body body) rest middle →
      Defines actions list middle after →
      Defines actions ((name, body) :: list)
        (.word "def" :: .word name :: .equals :: .openBrace :: rest) after

/-- Adds definitions to the routines of a table, in which no name may stand twice. -/
def link (before : Table Statement) : Definitions → Except CompileError (Table Statement)
  | [] => .ok before
  | (name, body) :: rest =>
    if before.contains name then .error (.duplicateRoutine name)
      else link (before.insert name (.block body)) rest

/-! ## Reading definitions -/

theorem Reads.keeps_end {actions : Table HostAction} {phrase : Phrase}
    {before after : List TokenKind} (h : Reads actions phrase before after) :
    .endOfSource ∈ before → .endOfSource ∈ after := by
  induction h with
  | @clausesMore kind _ _ _ _ _ _ isPattern _ _ ihBody ihList =>
    have : kind ≠ .endOfSource := by
      rintro rfl
      simp [patternOf?] at isPattern
    simp only [List.mem_cons, reduceCtorEq, false_or, this.symm]
    exact ihList ∘ ihBody
  | chooseElse _ _ _ _ ihCondition ihTrue ihFalse =>
    simp only [List.mem_cons, reduceCtorEq, false_or] at ihCondition ihTrue ⊢
    exact ihFalse ∘ ihTrue ∘ ihCondition
  | _ => simp_all

theorem Defines.append {actions : Table HostAction} {first second : Definitions}
    {before middle after : List TokenKind} (h : Defines actions first before middle)
    (h' : Defines actions second middle after) : Defines actions
      (first ++ second) before after := by
  induction h with
  | done => exact h'
  | more body _ ih => exact .more body (ih h')

theorem Defines.transport {actions others : Table HostAction} {list : Definitions}
    {before after : List TokenKind} (h : Defines actions list before after) :
    (∀ d ∈ list, ∀ s ∈ d.2, ∀ name action, s.Uses name action → others.get? name = some action) →
      ∃ taken, before = taken ++ after ∧ ∀ rest, Defines others list (taken ++ rest) rest := by
  induction h with
  | done => exact fun _ => ⟨[], rfl, fun _ => .done⟩
  | @more name body list _ _ _ reads _ ih =>
    intro agree
    obtain ⟨takenList, rfl, defines⟩ := ih fun d mem => agree d (.tail _ mem)
    obtain ⟨taken, rfl, anyhow⟩ := reads.transport fun name action used => by
      obtain ⟨s, mem, used⟩ := used
      exact agree _ (.head _) s mem name action used
    refine ⟨.word "def" :: .word name :: .equals :: .openBrace :: taken ++ takenList,
      by simp, fun rest => ?_⟩
    simp only [List.cons_append, List.append_assoc]
    exact .more (anyhow _ (.inl trivial)) (defines rest)

theorem Defines.host_known {actions : Table HostAction} {list : Definitions}
    {before after : List TokenKind} (h : Defines actions list before after) :
    ∀ d ∈ list, ∀ s ∈ d.2, ∀ name action,
      s.Uses name action →
      actions.get? name = some action := by
  induction h with
  | done => exact nofun
  | more reads _ ih =>
    intro d mem
    rcases List.mem_cons.1 mem with rfl | mem
    · exact fun s mem name action used => reads.host_known ⟨s, mem, used⟩
    · exact ih d mem

/-- Reading definitions is linking what the grammar says they are. -/
theorem definitions_eq {actions : Table HostAction} {list : Definitions}
    {kinds' after : List TokenKind} (h : Defines actions list kinds' (.endOfSource :: after)) :
    ∀ (before : Table Statement) (tokens : List Token), kinds tokens = kinds' →
      definitions actions before tokens = link before list := by
  generalize eq : TokenKind.endOfSource :: after = last at h
  induction h with
  | done =>
    intro before tokens left
    obtain ⟨token, rest, rfl, isEnd, -⟩ := kinds_eq_cons.1 (left.trans eq.symm)
    rw [definitions, link]
    simp [first, isEnd]
  | @more name body list _ _ _ reads _ ih =>
    intro before tokens left
    obtain ⟨token, others, rfl, isDef, left⟩ := kinds_eq_cons.1 left
    obtain ⟨named, others, rfl, isName, left⟩ := kinds_eq_cons.1 left
    obtain ⟨equals, others, rfl, isEquals, left⟩ := kinds_eq_cons.1 left
    obtain ⟨brace, others, rfl, isBrace, left⟩ := kinds_eq_cons.1 left
    obtain ⟨rest, made, left⟩ := reads.makes others left
    rw [definitions, first_cons (by simp [isDef])]
    simp only
    rw [takeWord_cons isDef, ok_bind, takeName_cons isName, ok_bind]
    simp only [Rest.andThen]
    rw [takeKind_cons (by simp) isEquals, ok_bind]
    simp only
    rw [takeKind_cons (by simp) isBrace, ok_bind]
    simp only
    rw [made, ok_bind, link]
    simp only
    split
    · rfl
    · exact ih eq _ _ left

theorem link_unique {actions : Table HostAction} {list list' : Definitions}
    {before after after' : List TokenKind} (h : Defines actions list before (.endOfSource :: after))
    (h' : Defines actions list' before (.endOfSource :: after')) (table : Table Statement) :
    link table list = link table list' := by
  let tokens : List Token := before.map fun kind => ⟨kind, ⟨1, 1⟩⟩
  have eq : kinds tokens = before := by simp [tokens, kinds, Function.comp_def]
  rw [← definitions_eq h table tokens eq, definitions_eq h' table tokens eq]

/-- What is read as definitions the grammar says to be definitions. -/
theorem definitions_sound {actions : Table HostAction} (before : Table Statement)
    (tokens : List Token) {table : Table Statement}
    (h : definitions actions before tokens = .ok table) (ends : .endOfSource ∈ kinds tokens) :
    ∃ list after, Defines actions list (kinds tokens) (.endOfSource :: after) := by
  rw [definitions] at h
  split at h
  · rename_i token eq
    cases tokens with
    | nil => simp at ends
    | cons head rest =>
      by_cases isEnd : head.kind = .endOfSource
      · exact ⟨[], kinds rest, by rw [kinds_cons, isEnd]; exact .done⟩
      · rw [first_cons isEnd] at eq
        cases eq
  · obtain ⟨afterDef, isDef, h⟩ := bind_eq_ok.1 h
    obtain ⟨⟨name, afterName⟩, isName, h⟩ := bind_eq_ok.1 h
    obtain ⟨afterEquals, isEquals, h⟩ := bind_eq_ok.1 h
    obtain ⟨afterBrace, isBrace, h⟩ := bind_eq_ok.1 h
    obtain ⟨⟨body, behind⟩, made, h⟩ := bind_eq_ok.1 h
    simp only [Rest.andThen] at h isEquals isBrace made
    split at h
    · cases h
    · have reads : Reads actions (.body body) (kinds afterBrace.val) (kinds behind.val) :=
        reads_iff.2 ⟨_, made, rfl⟩
      have shorter : behind.val.length < tokens.length :=
        ((((afterDef.andThen afterName).andThen afterEquals).andThen
          afterBrace).andThen behind).property
      rw [takeKind_eq_ok isDef, takeName_eq_ok isName, takeKind_eq_ok isEquals,
        takeKind_eq_ok isBrace] at ends ⊢
      obtain ⟨list, after, defines⟩ :=
        definitions_sound _ _ h (reads.keeps_end (by simpa using ends))
      exact ⟨_, after, .more reads defines⟩
termination_by tokens.length

/-! ## Bare statements -/

/-- Statements that make up a source can stand in braces instead. -/
theorem statements_body {actions : Table HostAction} {tokens : List Token} {list : List Statement}
    (h : statements actions tokens = .ok list) {front : List TokenKind}
    (eq : kinds tokens = front ++ [.endOfSource]) (notEnd : .endOfSource ∉ front)
    (after : List TokenKind) :
    Reads actions (.body list) (front ++ .closeBrace :: after) after := by
  rw [statements] at h
  split at h
  · rename_i token none
    cases h
    cases front with
    | nil => exact .bodyEnd
    | cons kind others =>
      obtain ⟨head, rest, rfl, rfl, -⟩ := kinds_eq_cons.1 eq
      have notEnd : head.kind ≠ .endOfSource := fun isEnd => notEnd (isEnd ▸ .head _)
      rw [first_cons notEnd] at none
      cases none
  · obtain ⟨⟨read, behind⟩, made, h⟩ := bind_eq_ok.1 h
    obtain ⟨others, madeOthers, h⟩ := bind_eq_ok.1 h
    cases h
    have reads : Reads actions (.statement read) (kinds tokens) (kinds behind.val) :=
      reads_iff.2 ⟨behind, made, rfl⟩
    have some : .endOfSource ∈ kinds behind.val := reads.keeps_end (by simp [eq])
    have split := List.dropLast_concat_getLast (List.ne_nil_of_mem some)
    obtain ⟨taken, all, anyhow⟩ := reads.transport fun name action used => reads.host_known used
    rw [eq, ← split, ← List.append_assoc] at all
    obtain ⟨rfl, last⟩ := List.append_inj' all rfl
    rw [← last] at split
    have next : Replaces (kinds behind.val)
        ((kinds behind.val).dropLast ++ .closeBrace :: after) := by
      conv => lhs; rw [← split]
      exact Replaces.append (.inr ⟨by simp, by simp⟩) _
    rw [List.append_assoc]
    exact .bodyMore (anyhow _ (.inr next)) (statements_body madeOthers split.symm
      (fun mem => notEnd (List.mem_append_right _ mem)) after)
termination_by tokens.length
decreasing_by exact behind.property

/-! ## Linking -/

theorem link_ok_iff {list : Definitions} : ∀ {before : Table Statement},
    (∃ table, link before list = .ok table) ↔
    (list.map (·.1)).Nodup ∧ ∀ d ∈ list, before.contains d.1 = false := by
  induction list with
  | nil => simp [link]
  | cons d rest ih =>
    intro before
    obtain ⟨name, body⟩ := d
    rw [link]
    split
    · rename_i known
      simp [known]
    · rename_i new
      rw [ih]
      simp only [Table.contains_insert, Bool.or_eq_false_iff, beq_eq_false_iff_ne, ne_eq,
        List.map_cons,
        List.nodup_cons, List.mem_map, List.mem_cons, forall_eq_or_imp]
      grind

theorem get?_link {list : Definitions} {name : String} {s : Statement} :
    ∀ {before table : Table Statement}, link before list = .ok table →
      (table.get? name = some s ↔ before.get? name = some s ∨ ∃ body, (name, body) ∈ list ∧
        s = .block body) := by
  induction list with
  | nil =>
    intro before table h
    cases h
    simp
  | cons d rest ih =>
    intro before table h
    obtain ⟨first, body⟩ := d
    rw [link] at h
    split at h
    · cases h
    · rename_i new
      have absent : before.get? first = none := by simpa [Table.contains] using new
      rw [ih h, Table.get?_insert]
      by_cases same : first = name
      · subst same
        simp only [absent, if_true, List.mem_cons, Prod.mk.injEq, true_and]
        grind
      · simp [same, Ne.symm same]

/-- Every call in the routines of a table finds one. -/
def Resolved (table : Table Statement) : Prop :=
  ∀ name s, table.get? name = some s → ∀ routine ∈ s.calls, table.contains routine

theorem mem_values {α : Type} {t : Table α} {a : α} : a ∈ t.values ↔
    ∃ name, t.get? name = some a := by
  simp only [Table.values, List.mem_map, ← Table.mem_entries_iff]
  constructor
  · rintro ⟨⟨name, value⟩, mem, rfl⟩
    exact ⟨name, mem⟩
  · rintro ⟨name, mem⟩
    exact ⟨_, mem, rfl⟩

theorem find?_unresolved {table : Table Statement} :
    ((table.values.flatMap Statement.calls).find? fun name => !table.contains name) = none ↔
      Resolved table := by
  simp only [List.find?_eq_none, List.mem_flatMap, mem_values, Resolved]
  grind

/-- The routines, unless a call among them finds none. -/
def checked (defined : Table Statement) : Except CompileError (Table Statement) :=
  match (defined.values.flatMap Statement.calls).find? fun name => !defined.contains name with
  | some name => .error (.undefinedRoutine name)
  | none => .ok defined

theorem checked_ok_iff {defined table : Table Statement} :
    checked defined = .ok table ↔ defined = table ∧ Resolved table := by
  rw [checked]
  split
  · rename_i name found
    refine ⟨nofun, ?_⟩
    rintro ⟨rfl, resolved⟩
    rw [find?_unresolved.2 resolved] at found
    cases found
  · rename_i none
    constructor
    · rintro ⟨⟩
      exact ⟨rfl, find?_unresolved.1 none⟩
    · rintro ⟨rfl, -⟩
      rfl

/-- A source that starts with `def` is read as definitions. -/
theorem routines_of_def {actions : Table HostAction} {tokens : List Token}
    (starts : (kinds tokens).head? = some (.word "def")) :
    routines actions tokens = definitions actions .empty tokens >>= checked := by
  rw [routines]
  split
  · rfl
  · rename_i none
    exact absurd starts ((after?_eq_none (by simp)).1 none)

theorem routines_of_bare {actions : Table HostAction} {tokens : List Token}
    (bare : (kinds tokens).head? ≠ some (.word "def")) :
    routines actions tokens = statements actions tokens >>= fun list =>
      checked (Table.empty.insert mainRoutine (.block list)) := by
  rw [routines, (after?_eq_none (by simp)).2 bare]
  simp only [pure_bind]
  rfl

/-- A source without tokens is one of bare statements, of which it has none. -/
theorem routines_of_nothing {actions : Table HostAction} {tokens : List Token}
    (h : kinds tokens = [.endOfSource]) :
    routines actions tokens = .ok (Table.empty.insert mainRoutine (.block [])) := by
  obtain ⟨token, rest, rfl, isEnd, nothing⟩ := kinds_eq_cons.1 h
  have notDef : (kinds (token :: rest)).head? ≠ some (.word "def") := by simp [isEnd]
  have none : statements actions (token :: rest) = .ok [] := by
    rw [statements]
    simp [first, isEnd]
  have resolved : Resolved (Table.empty.insert mainRoutine (.block [])) := by
    intro name s found
    rw [Table.get?_insert, Table.get?_empty] at found
    split at found
    · cases found
      simp [Statement.calls, Statement.callsOfAll]
    · cases found
  rw [routines_of_bare notDef, none, ok_bind]
  exact checked_ok_iff.2 ⟨rfl, resolved⟩

theorem routines_ok_iff {actions : Table HostAction} {tokens : List Token} {table : Table Statement}
    (starts : (kinds tokens).head? = some (.word "def")) (ends : .endOfSource ∈ kinds tokens) :
    routines actions tokens = .ok table ↔ ∃ list after, Defines actions list (kinds tokens)
      (.endOfSource :: after) ∧
      link .empty list = .ok table ∧ Resolved table := by
  rw [routines_of_def starts, bind_eq_ok]
  constructor
  · rintro ⟨defined, made, h⟩
    obtain ⟨rfl, resolved⟩ := checked_ok_iff.1 h
    obtain ⟨list, after, defines⟩ := definitions_sound _ _ made ends
    exact ⟨list, after, defines, definitions_eq defines _ _ rfl ▸ made, resolved⟩
  · rintro ⟨list, after, defines, linked, resolved⟩
    exact ⟨table, definitions_eq defines _ _ rfl ▸ linked, checked_ok_iff.2 ⟨rfl, resolved⟩⟩

end ScriptHost.Grammar
