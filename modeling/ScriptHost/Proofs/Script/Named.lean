import ScriptHost.Proofs.Script.Routines
/-!
# The names of routines

In a source of routines an equals sign stands only behind the name of one, whatever the words in
the bodies mean. So the tokens alone say which routines a source can define.

**Results.**
* `Grammar.Reads.plain`, `Grammar.Reads.body_closed`: what a phrase takes has no equals sign in it,
  and the statements of a block end with a brace.
* `Grammar.Defines.names`: definitions are of the names that stand before an equals sign, one by one
  and in their order.
-/
namespace ScriptHost.Grammar

def names : List TokenKind → List String
  | .word name :: .equals :: rest => name :: names rest
  | _ :: rest => names rest
  | [] => []

variable {actions : Table HostAction} {before after : List TokenKind}

theorem names_cons {kind : TokenKind} {rest : List TokenKind} (apart : rest.head? ≠ some .equals) :
    names (kind :: rest) = names rest := by
  rw [names]
  rintro name rest - rfl
  exact apart rfl

/-- Names are read off tokens part by part, where no name is cut off from its equals sign. -/
theorem names_append {back : List TokenKind} (apart : back.head? ≠ some .equals)
    (front : List TokenKind) : names (front ++ back) = names front ++ names back := by
  fun_induction names front with
  | case1 name rest ih => simp [names, ih]
  | case2 kind rest unnamed ih =>
    rw [List.cons_append, ← ih]
    by_cases next : rest.head? = some .equals
    · obtain ⟨rest, rfl⟩ := List.head?_eq_some_iff.1 next
      cases kind with
      | word name => exact absurd rfl (unnamed name rest rfl)
      | _ => rfl
    · refine names_cons ?_
      cases rest with
      | nil => exact apart
      | cons => exact next
  | case3 => rfl

theorem names_of_plain {kinds : List TokenKind} (plain : .equals ∉ kinds) : names kinds = [] := by
  induction kinds with
  | nil => rfl
  | cons kind rest ih =>
    rw [List.mem_cons, not_or] at plain
    rw [names_cons fun next => plain.2 (List.mem_of_mem_head? next), ih plain.2]

/-- A brace keeps a name apart from what stands behind it. -/
theorem names_behind_brace {taken rest : List TokenKind} (plain : .equals ∉ taken) :
    names (taken ++ .closeBrace :: rest) = names rest := by
  rw [names_append (by simp), names_of_plain plain]
  rfl

/-! ## Phrases -/

theorem Reads.count_equals {phrase : Phrase} (h : Reads actions phrase before after) :
    before.count .equals = after.count .equals := by
  induction h with
  | @clausesMore kind _ _ _ _ _ _ isPattern _ _ ihBody ihList =>
    have : kind ≠ .equals := by
      rintro rfl
      simp [patternOf?] at isPattern
    simp [this, ihBody, ihList]
  | _ => simp_all

theorem Reads.plain {phrase : Phrase} (h : Reads actions phrase before after) :
    ∃ taken, before = taken ++ after ∧ .equals ∉ taken := by
  obtain ⟨taken, rfl, -⟩ := h.transport fun _ _ => h.host_known
  have same := h.count_equals
  rw [List.count_append] at same
  exact ⟨taken, rfl, List.count_eq_zero.1 (by omega)⟩

theorem Reads.body_closed {list : List Statement} (h : Reads actions (.body list) before after) :
    ∃ taken, before = taken ++ .closeBrace :: after ∧ .equals ∉ taken := by
  induction list generalizing before with
  | nil =>
    cases h with
    | bodyEnd => exact ⟨[], rfl, by simp⟩
  | cons s rest ih =>
    cases h with
    | bodyMore first others =>
      obtain ⟨taken, rfl, plain⟩ := first.plain
      obtain ⟨more, rfl, plain'⟩ := ih others
      exact ⟨taken ++ more, by simp, by simp [plain, plain']⟩

theorem Defines.names {list : Definitions} (h : Defines actions list before after) :
    names before = list.map (·.1) ++ names after := by
  induction h with
  | done => rfl
  | more body _ ih =>
    obtain ⟨taken, rfl, plain⟩ := body.body_closed
    simp [Grammar.names, names_behind_brace plain, ih]

end ScriptHost.Grammar
