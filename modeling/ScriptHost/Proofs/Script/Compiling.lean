import ScriptHost.Proofs.Script.Routines
import ScriptHost.Script.Program
/-!
# What compiling takes

A source sees the actions of the core namespace and of those it asks for; a word that several of
them define means what the first of them says. A source of routines compiles under some
namespaces if all of them are known, its tokens are definitions under their actions, no name is
defined twice and every call finds its routine.

**Results.**
* `Engine.actions_ok_iff`: the actions are there exactly if every namespace that is asked for is
  known.
* `Engine.get?_actions`: the action of a word is its `Engine.meaning`, that of the first
  namespace that has one.
* `Engine.compile_routines_iff`: what compiling a source of routines takes and gives.
-/
namespace ScriptHost

open Grammar Scanner

namespace Engine

/-! ## The meaning of a word -/

/-- The action that the first of some namespaces that defines a word gives it. -/
def meaning (engine : Engine) (spaces : List String) (word : String) : Option HostAction :=
  spaces.findSome? fun space => (engine.namespaces.get? space).bind (·.get? word)

theorem meaning_cons (engine : Engine) (space : String) (rest : List String) (word : String) :
    engine.meaning (space :: rest) word =
      ((engine.namespaces.get? space).bind (·.get? word)).or (engine.meaning rest word) := by
  rw [meaning, List.findSome?_cons, meaning]
  cases (engine.namespaces.get? space).bind (·.get? word) <;> rfl

theorem get?_mergeEntries (entries : List (String × HostAction)) (word : String) :
    ∀ before : Table HostAction,
    (entries.foldl (fun t e => if t.contains e.1 then t else t.insert e.1 e.2) before).get? word =
      (before.get? word).or (Table.lookup word entries) := by
  induction entries with
  | nil => simp [Table.lookup]
  | cons entry rest ih =>
    intro before
    obtain ⟨name, action⟩ := entry
    rw [List.foldl_cons, ih, Table.lookup]
    by_cases same : name = word
    · subst same
      cases known : before.get? name <;> simp [Table.contains, known]
    · by_cases known : before.contains name <;> simp [known, same]

theorem get?_merge (earlier later : Table HostAction) (word : String) :
    (merge earlier later).get? word = (earlier.get? word).or (later.get? word) :=
  get?_mergeEntries later.entries word earlier

theorem visible_ok_iff (engine : Engine) (spaces : List String) : ∀ before : Table HostAction,
    (∃ table, engine.visible before spaces = .ok table) ↔ ∀ space ∈ spaces,
      engine.hasNamespace space := by
  induction spaces with
  | nil => simp [visible]
  | cons space rest ih =>
    intro before
    rw [visible]
    cases known : engine.namespaces.get? space with
    | none => simp [hasNamespace, Table.contains, known]
    | some actions => simp [ih, hasNamespace, Table.contains, known]

theorem get?_visible {engine : Engine} {spaces : List String} {word : String} :
    ∀ {before table : Table HostAction}, engine.visible before spaces = .ok table →
      table.get? word = (before.get? word).or (engine.meaning spaces word) := by
  induction spaces with
  | nil =>
    intro before table h
    cases h
    simp [meaning]
  | cons space rest ih =>
    intro before table h
    rw [visible] at h
    split at h
    · cases h
    · rename_i actions known
      rw [ih h, get?_merge, Option.or_assoc, meaning_cons, known, Option.bind_some]

theorem actions_ok_iff {engine : Engine} {requested : List String} :
    (∃ table, engine.actions requested = .ok table) ↔ ∀ space ∈ requested,
      engine.hasNamespace space := by
  rw [actions, visible_ok_iff]
  simp [hasNamespace, engine.coreKnown]

/-- The action of a word is that of the first namespace that defines it. -/
theorem get?_actions {engine : Engine} {requested : List String} {table : Table HostAction}
    {word : String} (h : engine.actions requested = .ok table) :
    table.get? word = engine.meaning (coreNamespace :: requested) word := by
  rw [get?_visible h, Table.get?_empty, Option.none_or]

/-! ## Sources -/

theorem compile_ok_iff {engine : Engine} {source : String} {namespaces : List String}
    {unit : CompiledUnit} : engine.compile source namespaces = .ok unit ↔ unit.source = source ∧
      unit.namespaces = namespaces ∧
      ∃ actions tokens, engine.actions namespaces = .ok actions ∧ tokenize source = .ok tokens ∧
        routines actions tokens = .ok unit.blocks := by
  simp only [Engine.compile, bind_eq_ok, pure_eq_ok]
  constructor
  · rintro ⟨actions, visible, tokens, scanned, blocks, made, rfl⟩
    exact ⟨rfl, rfl, actions, tokens, visible, scanned, made⟩
  · obtain ⟨source', namespaces', blocks⟩ := unit
    rintro ⟨rfl, rfl, actions, tokens, visible, scanned, made⟩
    exact ⟨actions, visible, tokens, scanned, blocks, made, rfl⟩

theorem append_end_unique {kinds taken after : List TokenKind} (notEnd : .endOfSource ∉ kinds)
    (h : kinds ++ [.endOfSource] = taken ++ .endOfSource :: after) : after = [] := by
  have longer := congrArg List.length h
  rcases List.append_eq_append_iff.1 h with ⟨middle, rfl, eq⟩ | ⟨middle, rfl, eq⟩
  · cases middle with
    | nil => simpa using eq.symm
    | cons kind rest =>
      simp only [List.length_append, List.length_cons, List.length_nil] at longer
      exact List.eq_nil_of_length_eq_zero (by omega)
  · cases middle with
    | nil => simpa using eq
    | cons kind rest =>
      rw [List.cons_append, List.cons.injEq] at eq
      simp [← eq.1] at notEnd

/-- What compiling a source of routines takes and gives. -/
theorem compile_routines_iff {engine : Engine} {source : String} {namespaces : List String}
    {unit : CompiledUnit} {kinds : List TokenKind} (scans : Scans source.toList kinds)
    (starts : kinds.head? = some (.word "def")) :
    engine.compile source namespaces = .ok unit ↔ unit.source = source ∧
      unit.namespaces = namespaces ∧
      ∃ actions list, engine.actions namespaces = .ok actions ∧
        Defines actions list (kinds ++ [.endOfSource]) [.endOfSource] ∧
        link .empty list = .ok unit.blocks ∧ Resolved unit.blocks := by
  obtain ⟨tokens, scanned, eq⟩ := scans.all ⟨1, 1⟩
  have eq : Grammar.kinds tokens = kinds ++ [.endOfSource] := eq
  have starts : (Grammar.kinds tokens).head? = some (.word "def") := by
    rw [eq, List.head?_append, starts]; rfl
  have ends : .endOfSource ∈ Grammar.kinds tokens := by simp [eq]
  rw [compile_ok_iff]
  refine and_congr_right fun _ => and_congr_right fun _ => exists_congr fun actions => ?_
  constructor
  · rintro ⟨tokens', visible, scanned', made⟩
    rw [tokenize, scanned] at scanned'
    cases scanned'
    obtain ⟨list, after, defines, linked, resolved⟩ := (routines_ok_iff starts ends).1 made
    rw [eq] at defines
    obtain ⟨taken, split, -⟩ := defines.transport defines.host_known
    rw [append_end_unique scans.no_end split] at defines
    exact ⟨list, visible, defines, linked, resolved⟩
  · rintro ⟨list, visible, defines, linked, resolved⟩
    exact ⟨tokens, visible, scanned, (routines_ok_iff starts ends).2
      ⟨list, [], eq ▸ defines, linked, resolved⟩⟩

end Engine

theorem ProgramSource.compile_ok_iff {source : ProgramSource} {engine : Engine}
    {program : Program} : source.compile engine = .ok program ↔
      engine.compile source.text source.namespaces = .ok program.unit ∧
        program.entries = source.entries := by
  simp only [ProgramSource.compile, bind_eq_ok, pure_eq_ok]
  constructor
  · rintro ⟨unit, made, rfl⟩
    exact ⟨made, rfl⟩
  · obtain ⟨unit, entries⟩ := program
    rintro ⟨made, rfl⟩
    exact ⟨unit, made, rfl⟩

end ScriptHost
