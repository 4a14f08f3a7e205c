import ScriptHost.Proofs.Dispatch.Linked
/-!
# How long handlers have been bound

The states that a dispatch graph went through are kept in a list, the latest first. A handler
that is bound to a dispatcher has been so without interruption for some of the latest states:
its streak there.

**Results.**
* `Aligned.cons`: as long as every operation lets the members of a dispatcher keep their order
  and adds one at most, at the end, they are in the order in which their streaks began.
-/
namespace ScriptHost.DispatchGraph

variable {d : Key .dispatcher} {g g' : DispatchGraph} {older : List DispatchGraph}

/-- For how many of the latest states a handler has been bound to a dispatcher without
interruption. -/
def streak (d : Key .dispatcher) (id : String) (states : List DispatchGraph) : Nat :=
  (states.takeWhile fun g => decide (id ∈ g.memberIds d)).length

theorem streak_of_mem {id : String} (h : id ∈ g.memberIds d) :
    streak d id (g :: older) = streak d id older + 1 := by
  simp [streak, h]

theorem streak_of_not_mem {id : String} (h : id ∉ g.memberIds d) :
    streak d id (g :: older) = 0 := by
  simp [streak, h]

/-- The members of a dispatcher are in the order in which their streaks began. -/
def Aligned (d : Key .dispatcher) (g : DispatchGraph) (states : List DispatchGraph) : Prop :=
  (g.memberIds d).Pairwise fun first second => streak d second states < streak d first states

theorem Aligned.cons (aligned : Aligned d g (g :: older))
    (follows : Follows (g.memberIds d) (g'.memberIds d)) : Aligned d g' (g' :: g :: older) := by
  obtain ⟨kept, new, eq, kept_sublist, atMostOne, fresh⟩ := follows
  have later {first second : String} (mem : first ∈ g'.memberIds d) (mem' : second ∈ g'.memberIds d)
      (h : streak d second (g :: older) < streak d first (g :: older)) :
      streak d second (g' :: g :: older) < streak d first (g' :: g :: older) := by
    rw [streak_of_mem mem, streak_of_mem mem']
    exact Nat.succ_lt_succ h
  unfold Aligned
  rw [eq] at later ⊢
  refine List.pairwise_append.2 ⟨?_, ?_, fun first mem second mem' => ?_⟩
  · refine (aligned.sublist kept_sublist).imp_of_mem fun mem mem' h => ?_
    exact later (List.mem_append_left _ mem) (List.mem_append_left _ mem') h
  · match new, atMostOne with
    | [], _ => exact .nil
    | [id], _ => exact List.pairwise_singleton ..
  · refine later (List.mem_append_left _ mem) (List.mem_append_right _ mem') ?_
    rw [streak_of_not_mem (fresh second mem'), streak_of_mem (kept_sublist.subset mem)]
    exact Nat.succ_pos _

/-- What was written down of a graph's states, with what came before: the latest is the graph
itself, and every dispatcher's members are in the order in which their streaks began. -/
def Recorded (before : List DispatchGraph) (g : DispatchGraph)
    (states : List DispatchGraph) : Prop :=
  ∃ older, states ++ before = g :: older ∧ ∀ d, Aligned d g (g :: older)

theorem Recorded.cons {before states : List DispatchGraph} (h : Recorded before g states)
    (follows : ∀ d, Follows (g.memberIds d) (g'.memberIds d)) : Recorded before g'
      (g' :: states) := by
  obtain ⟨older, eq, aligned⟩ := h
  exact ⟨g :: older, by rw [List.cons_append, eq], fun d => (aligned d).cons (follows d)⟩

theorem Follows.of_eq {before after : List String} (h : after = before) : Follows before after :=
  ⟨before, [], by simp [h], .refl _, by simp, by simp⟩

end ScriptHost.DispatchGraph
