import ScriptHost.Proofs.Dispatch.Handling
/-!
# What a new handler is

A new handler depends on its id, its entry, the engine and the ids of the registered dispatchers,
and on nothing that happened before: it has the program that its source compiles to, if it does,
and is bound to the registered dispatchers that it names, each once, in the order in which it
names them.

**Results.**
* `create_portrait`: what the new handler is, and that making it replaces no dispatcher's
  program.
* `Moves.crewOf_new`: in the dispatchers that it is bound to it comes last.
-/
namespace ScriptHost.DispatchGraph

variable {g g' : DispatchGraph} {d : Key .dispatcher} {k : Key .handler}

def idsOf (g : DispatchGraph) (keys : List (Key .dispatcher)) : List String :=
  keys.filterMap g.idOf

/-- The registered ids among some names, each once. -/
def registeredAmong (g : DispatchGraph) (names : List String) : List String :=
  (names.filter g.registry.contains).eraseDups

/-! ## Joining the named -/

/-- The ids of the joined dispatchers are added to those of the bound ones, in the order of the
names. -/
theorem Joining.idsOf_joinNamed (reorder : Bool) (names : List String) : ∀ {g : DispatchGraph}
    {bound : List (Key .dispatcher)}, Joining k g bound →
    g.idsOf (joinNamed k reorder g bound names).2 =
      (names.filter g.registry.contains).foldl
        (fun known name => if known.contains name then known else known ++ [name])
        (g.idsOf bound) := by
  induction names with
  | nil => exact fun _ => rfl
  | cons id rest ih =>
    intro g bound joining
    rw [joining.joinNamed_cons]
    cases found : g.registry.get? id with
    | none =>
      have unknown : g.registry.contains id = false := by simp [Table.contains, found]
      rw [List.filter_cons_of_neg (by simp [unknown])]
      exact ih joining
    | some d =>
      have known : g.registry.contains id = true := by simp [Table.contains, found]
      have own := joining.registered found
      have mem_iff : d ∈ bound ↔ (g.idsOf bound).contains id = true := by
        rw [List.contains_iff_mem, idsOf, List.mem_filterMap]
        refine ⟨fun mem => ⟨d, mem, own⟩, ?_⟩
        rintro ⟨e, mem, same⟩
        obtain ⟨other, found'⟩ := joining.known mem
        obtain rfl : other = id := Option.some.inj ((joining.registered found').symm.trans same)
        rwa [Option.some.inj (found.symm.trans found')]
      rw [List.filter_cons_of_pos known, List.foldl_cons]
      simp only [← mem_iff]
      split
      · exact ih joining
      · rename_i new
        have framed := Framed.join g k reorder d
        have ids (keys : List (Key .dispatcher)) : (g.join k reorder d).idsOf keys = g.idsOf keys :=
          List.filterMap_congr fun e _ => framed.ids e
        have joined := ih (joining.join found new reorder)
        rw [ids, ids, framed.registry] at joined
        rw [joined, idsOf, idsOf, List.filterMap_append]
        simp [own]

/-- Without reordering no program is replaced. -/
theorem programOf_joinNamed (names : List String) : ∀ (g : DispatchGraph)
    (bound : List (Key .dispatcher)),
    (joinNamed k false g bound names).1.programOf d = g.programOf d := by
  induction names with
  | nil => exact fun _ _ => rfl
  | cons id rest ih =>
    intro g bound
    unfold joinNamed
    split
    · exact ih g bound
    · split
      · exact ih g bound
      · rw [ih]
        simp [join]

/-! ## Creating -/

/-- A handler without members' places has joined nothing yet. -/
theorem joining_new {handler : Handler} (linked : g.Linked) (absent : g.handlers.get? k = none)
    (touched : Retouched k handler g g') : Joining k g' [] where
  registered found := by
    rw [touched.idOf]
    exact linked.registered (touched.registry ▸ found)
  living d h mem := by
    rw [touched.membersOf] at mem
    have alive := linked.living d h mem
    have notK : h ≠ k := by
      rintro rfl
      simp [Store.contains, absent] at alive
    rw [Store.contains, touched.handlers, if_neg notK]
    exact alive
  alive := by simp [Store.contains, touched.handlers]
  mem_iff {d} := by
    rw [touched.membersOf]
    simp [linked.mirrored.not_mem absent d]
  known := nofun
  nodup := .nil

/-- What a new handler is. -/
structure Portrait (g : DispatchGraph) (id : String) (entry : ConfigEntry)
    (handler : Handler) : Prop where
  id : handler.id = id
  entry : handler.entry = entry
  program : handler.program = (handler.source.compile g.engine).toOption
  bound : g.idsOf handler.bound = g.registeredAmong handler.config.bind

theorem create_portrait {id : String} {entry : ConfigEntry} (linked : g.Linked)
    (made : g.create id entry = .ok g') :
    ∃ handler, g'.handlers.get? g.handlers.nextKey = some handler ∧ g.Portrait id entry handler ∧
      HandlerConfig.ofEntry id entry = .ok handler.config ∧
      ∀ d, g'.programOf d = g.programOf d := by
  simp only [create, bind_eq_ok, pure_eq_ok] at made
  obtain ⟨config, configured, rfl⟩ := made
  have absent := Store.get?_nextKey g.handlers
  have added : Retouched g.handlers.nextKey { id, entry, config } g
      { g with handlers := g.handlers.add { id, entry, config } } :=
    ⟨rfl, rfl, rfl, Store.get?_add _ _⟩
  generalize g.handlers.nextKey = k at *
  generalize ({ g with handlers := g.handlers.add { id, entry, config } } : DispatchGraph) = g₁ at *
  have found₁ : g₁.handlers.get? k = some { id, entry, config } := by
    rw [added.handlers, if_pos rfl]
  have compiled := recompileHandler_eq found₁
  rw [Option.or_none, added.engine] at compiled
  have touched := added.trans compiled
  generalize (g₁.recompileHandler k).1 = g₂ at *
  have found₂ := touched.handlers k
  rw [if_pos rfl] at found₂
  have joining := joining_new linked absent touched
  have framed := @Framed.joinNamed k false config.bind g₂ []
  have ids := joining.idsOf_joinNamed false config.bind
  have programs (d : Key .dispatcher) :=
    programOf_joinNamed (k := k) (d := d) config.bind g₂ []
  have eq : g₂.rebind k false = (joinNamed k false g₂ [] config.bind).1.setBound k
      (joinNamed k false g₂ [] config.bind).2 := by
    simp only [rebind, found₂, leaveUnnamed]
  rw [eq]
  generalize joinNamed k false g₂ [] config.bind = joined at *
  have found₃ := found₂
  rw [← framed.handlers] at found₃
  have final := Retouched.setBound found₃ joined.2
  refine ⟨_, by rw [final.handlers, if_pos rfl], ⟨rfl, rfl, rfl, ?_⟩, configured, fun d => ?_⟩
  · have same (keys : List (Key .dispatcher)) : g₂.idsOf keys = g.idsOf keys :=
      List.filterMap_congr fun d _ => touched.idOf d
    rw [same, same, touched.registry, addNames_eq] at ids
    rw [ids]
    simp [idsOf, registeredAmong]
  · rw [final.programOf, programs, touched.programOf]

/-- A new handler comes last in the dispatchers that it is bound to. -/
theorem Moves.crewOf_new {handler : Handler} (moves : Moves k (some handler) g g')
    (linked : g.Linked) (absent : g.handlers.get? k = none) :
    g'.crewOf d = g.crewOf d ++ if d ∈ handler.bound then [handler] else [] := by
  have outside := linked.mirrored.not_mem absent d
  have others : (g.membersOf d).filterMap g'.handlers.get? = g.crewOf d := by
    refine List.filterMap_congr fun h mem => ?_
    rw [moves.handlers, if_neg fun same : h = k => outside (same ▸ mem)]
  have own : g'.handlers.get? k = some handler := by rw [moves.handlers, if_pos rfl]
  rw [crewOf, moves.members, placed, bindsTo, Option.any_some, filter_of_not_mem outside]
  by_cases mem : d ∈ handler.bound
  · simp [mem, outside, others, own]
  · simp [mem, others]

end ScriptHost.DispatchGraph
