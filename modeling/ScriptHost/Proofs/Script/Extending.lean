import ScriptHost.Proofs.Script.Compiling
import ScriptHost.Script.StandardActions
/-!
# Sources under more namespaces

Where a statement ends depends on the arities of the host actions in it, so a source under other
actions can be read as another program, or as none. Under a table that has all actions of a smaller
one it is read as under that one: the reader asks only for words that it then uses.

Of two namespaces the earlier one says what a word means. Namespaces behind those that a source
asks for therefore only add words, and none of the words that the source uses.

**Results.**
* `Grammar.Reads.extend`, `Grammar.routines_extend`: what is read under some actions is read under
  more of them.
* `Engine.actions_extend`: further namespaces take no action away.
* `Engine.actions_repeat`: a namespace that comes again adds nothing.
* `later_namespaces_keep_programs`: both told of compiled sources.
-/
namespace ScriptHost

namespace Grammar

/-- Every action of a table is in another. -/
def Extends (actions others : Table HostAction) : Prop :=
  ∀ name action, actions.get? name = some action → others.get? name = some action

variable {actions others : Table HostAction}

theorem Reads.extend {phrase : Phrase} {before after : List TokenKind}
    (more : Extends actions others)
    (h : Reads actions phrase before after) : Reads others phrase before after := by
  obtain ⟨taken, rfl, reads⟩ := h.transport fun name action used => more name action
    (h.host_known used)
  exact reads after (.inr (.refl after))

theorem Defines.extend {list : Definitions} {before after : List TokenKind}
    (more : Extends actions others) (h : Defines actions list before after) :
    Defines others list before after := by
  induction h with
  | done => exact .done
  | more body _ ih => exact .more (body.extend more) ih

/-- Whether there is a first token does not depend on places. -/
theorem first_eq_none_iff {tokens : List Token} : (first tokens).2 = none ↔
    ∀ kind ∈ (kinds tokens).head?, kind = .endOfSource := by
  cases tokens with
  | nil => simp [first]
  | cons token rest =>
    by_cases isEnd : token.kind = .endOfSource
    · simp [first, isEnd]
    · simp [first, isEnd]

/-- The places of the tokens do not matter either, since a reader under more actions is only known
to leave tokens of the same kinds. -/
theorem statements_extend (more : Extends actions others) {tokens tokens' : List Token}
    (same : kinds tokens' = kinds tokens) {list : List Statement}
    (h : statements actions tokens = .ok list) : statements others tokens' = .ok list := by
  have starts : (first tokens').2 = none ↔ (first tokens).2 = none := by
    rw [first_eq_none_iff, first_eq_none_iff, same]
  rw [statements] at h ⊢
  split at h
  · rename_i token none
    cases h
    split
    · rfl
    · rename_i token' rest some
      simp [none, some] at starts
  · rename_i token rest some
    obtain ⟨⟨read, behind⟩, made, h⟩ := bind_eq_ok.1 h
    obtain ⟨list, madeList, h⟩ := bind_eq_ok.1 h
    cases h
    have reads : Reads actions (.statement read) (kinds tokens) (kinds behind.val) :=
      reads_iff.2 ⟨behind, made, rfl⟩
    obtain ⟨behind', made', left⟩ := (reads.extend more).makes tokens' same
    split
    · rename_i token' none
      simp [none, some] at starts
    · rw [made', ok_bind]
      simp only
      rw [statements_extend more left madeList]
      rfl
termination_by tokens.length
decreasing_by exact behind.property

/-- What is compiled under some actions is compiled under more of them, to the same. -/
theorem routines_extend (more : Extends actions others) {tokens : List Token}
    (ends : .endOfSource ∈ kinds tokens) {table : Table Statement}
    (h : routines actions tokens = .ok table) : routines others tokens = .ok table := by
  by_cases starts : (kinds tokens).head? = some (.word "def")
  · rw [routines_of_def starts] at h ⊢
    obtain ⟨defined, made, checked⟩ := bind_eq_ok.1 h
    obtain ⟨list, after, defines⟩ := definitions_sound _ _ made ends
    rw [definitions_eq defines _ _ rfl] at made
    refine bind_eq_ok.2 ⟨defined, ?_, checked⟩
    rw [definitions_eq (defines.extend more) _ _ rfl, made]
  · rw [routines_of_bare starts] at h ⊢
    obtain ⟨body, read, checked⟩ := bind_eq_ok.1 h
    exact bind_eq_ok.2 ⟨body, statements_extend more rfl read, checked⟩

end Grammar

open Grammar Scanner

namespace Engine

variable {engine : Engine} {namespaces later front back : List String} {space : String}

/-! ## Namespaces -/

/-- What several namespaces make of a word is what the first of them do, or else the others. -/
theorem meaning_append (engine : Engine) (front back : List String) (word : String) :
    engine.meaning (front ++ back) word =
      (engine.meaning front word).or (engine.meaning back word) := by
  rw [meaning, List.findSome?_append]
  rfl

theorem actions_extend {actions others : Table HostAction}
    (visible : engine.actions namespaces = .ok actions)
    (extended : engine.actions (namespaces ++ later) = .ok others) : Extends actions others := by
  intro name action known
  rw [get?_actions visible] at known
  rw [get?_actions extended, ← List.cons_append, meaning_append, known]
  rfl

/-- The first namespace that is not known is the one that is reported. -/
theorem visible_append (front : List String) : ∀ before : Table HostAction,
    engine.visible before (front ++ back) =
      engine.visible before front >>= fun table => engine.visible table back := by
  induction front with
  | nil => exact fun _ => rfl
  | cons space rest ih =>
    intro before
    rw [List.cons_append, visible, visible]
    split
    · rfl
    · exact ih _

theorem merge_known {before actions : Table HostAction}
    (known : ∀ word action, actions.get? word = some action → before.contains word) :
    merge before actions = before := by
  refine Table.ext_get? fun word => ?_
  rw [get?_merge]
  cases found : before.get? word with
  | some action => rfl
  | none =>
    cases other : actions.get? word with
    | none => rfl
    | some action => simpa [Table.contains, found] using known word action other

/-- A namespace that stands in front already adds nothing when it comes again. -/
theorem actions_repeat (seen : space ∈ coreNamespace :: front) :
    engine.actions (front ++ space :: back) = engine.actions (front ++ back) := by
  rw [actions, actions, ← List.cons_append, ← List.cons_append, visible_append, visible_append]
  cases shown : engine.visible .empty (coreNamespace :: front) with
  | error refused => rfl
  | ok table =>
    rw [ok_bind, ok_bind, visible]
    have known : engine.hasNamespace space :=
      (visible_ok_iff engine _ _).1 ⟨table, shown⟩ space seen
    obtain ⟨actions, found⟩ := Option.isSome_iff_exists.1 known
    rw [found]
    simp only
    rw [merge_known]
    intro word action named
    rw [Table.contains, get?_visible shown, Table.get?_empty, Option.none_or, meaning,
      List.findSome?_isSome_iff]
    exact ⟨space, seen, by simp [found, named]⟩

end Engine

/-! ## Compiled sources -/

/-- Namespaces behind those under which a source compiles never change its program: it compiles
under all of them, to the same routines with the same host actions. And a namespace that is
already among those in front of it changes nothing when it comes again, whether the source compiles
or not. -/
theorem later_namespaces_keep_programs (engine : Engine) (source : String)
    (namespaces : List String) :
    (∀ later unit, (∀ space ∈ later, engine.hasNamespace space) →
      engine.compile source namespaces = .ok unit →
      engine.compile source (namespaces ++ later) =
        .ok { unit with namespaces := namespaces ++ later }) ∧
    ∀ front back space, namespaces = front ++ back → space ∈ coreNamespace :: front →
      engine.compile source (front ++ space :: back) =
        (engine.compile source namespaces).map
          ({ · with namespaces := front ++ space :: back }) := by
  constructor
  · intro later unit known compiled
    obtain ⟨rfl, rfl, actions, tokens, visible, scanned, made⟩ := Engine.compile_ok_iff.1 compiled
    have all : ∀ space ∈ unit.namespaces ++ later, engine.hasNamespace space := by
      intro space mem
      rcases List.mem_append.1 mem with mem | mem
      · exact Engine.actions_ok_iff.1 ⟨actions, visible⟩ space mem
      · exact known space mem
    obtain ⟨others, extended⟩ := Engine.actions_ok_iff.2 all
    obtain ⟨front, ends, -⟩ := all_sound scanned
    have ends : .endOfSource ∈ kinds tokens := by
      rw [kinds, ends]
      simp
    refine Engine.compile_ok_iff.2 ⟨rfl, rfl, others, tokens, extended, scanned, ?_⟩
    exact routines_extend (Engine.actions_extend visible extended) ends made
  · rintro front back space rfl seen
    rw [Engine.compile, Engine.compile, Engine.actions_repeat seen]
    cases engine.actions (front ++ back) with
    | error refused => rfl
    | ok actions =>
      rw [ok_bind, ok_bind]
      cases tokenize source with
      | error refused => rfl
      | ok tokens =>
        rw [ok_bind, ok_bind]
        cases routines actions tokens <;> rfl

/-- Another `tag`, of one argument, comes behind the one that the source uses. -/
theorem later_tag_is_not_read :
    (∀ space ∈ ["alt", "host"], StandardActions.engine.hasNamespace space) ∧
    (∃ unit, StandardActions.engine.compile "print tag print *x" ["text"] = .ok unit ∧
      StandardActions.engine.compile "print tag print *x" ["text", "alt", "host"] =
        .ok { unit with namespaces := ["text", "alt", "host"] }) ∧
    StandardActions.engine.compile "print tag print *x" ["text", "alt", "text"] =
      (StandardActions.engine.compile "print tag print *x" ["text", "alt"]).map
        ({ · with namespaces := ["text", "alt", "text"] }) := by
  have known : ∀ space ∈ ["alt", "host"], StandardActions.engine.hasNamespace space := by
    decide +kernel
  have compiles : (StandardActions.engine.compile "print tag print *x"
      ["text"]).toOption.isSome := by
    decide +kernel
  obtain ⟨unit, made⟩ := Option.isSome_iff_exists.1 compiles
  have made := toOption_eq_some.1 made
  exact ⟨known, ⟨unit, made, (later_namespaces_keep_programs _ _ _).1 _ unit known made⟩,
    (later_namespaces_keep_programs _ _ _).2 ["text", "alt"] [] "text" rfl (by simp)⟩

end ScriptHost
