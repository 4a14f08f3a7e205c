import ScriptHost.Dispatch.Graph
/-!
# The order in which handlers run

Ranking sorts handlers by insertion: each is put before the first that is not of higher
priority, the last handler first.

**Results.**
* `ranked_perm`: ranking neither loses nor adds handlers.
* `pairwise_ranked`: higher priorities come first, and handlers of one priority keep the order
  they had.
* `mem_handlersOf`: the ranked handlers of a dispatcher are those of its members that are not gone.
-/
namespace ScriptHost.DispatchGraph

theorem insertRanked_perm (handler : Handler) (list : List Handler) :
    (insertRanked handler list).Perm (handler :: list) := by
  fun_induction insertRanked handler list with
  | case1 => exact .refl _
  | case2 => exact .refl _
  | case3 other rest lower ih => exact (ih.cons other).trans (.swap handler other rest)

theorem ranked_perm (list : List Handler) : (ranked list).Perm list := by
  induction list with
  | nil => exact .refl _
  | cons handler rest ih => exact (insertRanked_perm handler (ranked rest)).trans (ih.cons handler)

@[simp] theorem mem_ranked {handler : Handler} {list : List Handler} : handler ∈ ranked list ↔
    handler ∈ list :=
  (ranked_perm list).mem_iff

/-- A handler runs before another if its priority is higher, or the same and it comes before it
otherwise. -/
def RunsBefore (before : Handler → Handler → Prop) (handler other : Handler) : Prop :=
  other.config.priority < handler.config.priority ∨
    handler.config.priority = other.config.priority ∧ before handler other

theorem RunsBefore.not_higher {before : Handler → Handler → Prop} {handler other : Handler}
    (h : RunsBefore before handler other) : other.config.priority ≤ handler.config.priority := by
  rcases h with lower | ⟨same, -⟩
  · exact Int64.le_of_lt lower
  · exact same ▸ Int64.le_refl _

theorem pairwise_insertRanked {before : Handler → Handler → Prop} {handler : Handler}
    {list : List Handler} (earlier : ∀ other ∈ list, before handler other)
    (h : list.Pairwise (RunsBefore before)) :
    (insertRanked handler list).Pairwise (RunsBefore before) := by
  fun_induction insertRanked handler list with
  | case1 => exact List.pairwise_singleton ..
  | case2 other rest notHigher =>
    refine List.pairwise_cons.2 ⟨fun third mem => ?_, h⟩
    have atMost : third.config.priority ≤ handler.config.priority := by
      rcases List.mem_cons.1 mem with rfl | mem
      · exact notHigher
      · exact Int64.le_trans ((List.pairwise_cons.1 h).1 third mem).not_higher notHigher
    rcases Int64.lt_or_eq_of_le atMost with lower | same
    · exact .inl lower
    · exact .inr ⟨same.symm, earlier third mem⟩
  | case3 other rest higher ih =>
    obtain ⟨ahead, sorted⟩ := List.pairwise_cons.1 h
    refine List.pairwise_cons.2 ⟨fun third mem =>
      ?_, ih (fun x mem => earlier x (.tail _ mem)) sorted⟩
    rcases List.mem_cons.1 ((insertRanked_perm handler rest).mem_iff.1 mem) with rfl | mem
    · exact .inl (Int64.not_le.1 higher)
    · exact ahead third mem

/-- Higher priorities come first, and handlers of one priority keep the order they had. -/
theorem pairwise_ranked {before : Handler → Handler → Prop} {list : List Handler}
    (h : list.Pairwise before) :
    (ranked list).Pairwise (RunsBefore before) := by
  induction list with
  | nil => exact .nil
  | cons handler rest ih =>
    obtain ⟨earlier, apart⟩ := List.pairwise_cons.1 h
    exact pairwise_insertRanked (fun other mem => earlier other (mem_ranked.1 mem)) (ih apart)

theorem map_insertRanked {α : Type} (f : Handler → α)
    (byPriority : ∀ x y, f x = f y → x.config.priority = y.config.priority) {x y : Handler}
    (same : f x = f y) : ∀ {list list' : List Handler}, list.map f = list'.map f →
      (insertRanked x list).map f = (insertRanked y list').map f
  | [], [], _ => by simp [insertRanked, same]
  | [], _ :: _, eq => by simp at eq
  | _ :: _, [], eq => by simp at eq
  | other :: rest, other' :: rest', eq => by
    obtain ⟨head, tail⟩ := List.cons.inj eq
    simp only [insertRanked, byPriority _ _ same, byPriority _ _ head]
    split
    · simp [same, head, tail]
    · simp [head, map_insertRanked f byPriority same tail]

theorem map_ranked {α : Type} (f : Handler → α)
    (byPriority : ∀ x y, f x = f y → x.config.priority = y.config.priority) :
    ∀ {list list' : List Handler}, list.map f = list'.map f → (ranked list).map f =
      (ranked list').map f
  | [], [], _ => rfl
  | [], _ :: _, eq => by simp at eq
  | _ :: _, [], eq => by simp at eq
  | x :: rest, y :: rest', eq => by
    obtain ⟨head, tail⟩ := List.cons.inj eq
    exact map_insertRanked f byPriority head (map_ranked f byPriority tail)

/-! ## The handlers of a dispatcher -/

def membersOf (g : DispatchGraph) (d : Key .dispatcher) : List (Key .handler) :=
  ((g.dispatchers.get? d).map (·.members)).getD []

def crewOf (g : DispatchGraph) (d : Key .dispatcher) : List Handler :=
  (g.membersOf d).filterMap g.handlers.get?

theorem handlersOf_eq (g : DispatchGraph) (d : Key .dispatcher) :
    g.handlersOf d = ranked (g.crewOf d) := by
  unfold handlersOf crewOf membersOf
  cases g.dispatchers.get? d <;> rfl

theorem mem_crewOf {g : DispatchGraph} {d : Key .dispatcher} {handler : Handler} :
    handler ∈ g.crewOf d ↔ ∃ h ∈ g.membersOf d, g.handlers.get? h = some handler := by
  simp [crewOf]

theorem mem_handlersOf {g : DispatchGraph} {d : Key .dispatcher} {handler : Handler} :
    handler ∈ g.handlersOf d ↔ ∃ h ∈ g.membersOf d, g.handlers.get? h = some handler := by
  rw [handlersOf_eq, mem_ranked, mem_crewOf]

end ScriptHost.DispatchGraph
