import ScriptHost.Project.Sync
/-!
# What registries keep

Registries are loaded and brought in step with a file by long runs of operations on single
entities. What each of them keeps of the registry and the surroundings together, the whole run
keeps.

**Recording.** `EntityKind.recorded` is a kind with the surroundings after each operation
written down, the latest first. A run of it is a run of the kind that also says what it went
through.

**Results.**
* `retireAll_keeps`, `loadFiles_keeps`, `sync_keeps`: the induction over a run, once for all kinds.
* `load_quiet`: a load after which nothing follows for single entities.
-/
namespace ScriptHost

namespace Table

variable {α : Type}

theorem get?_cons_self (name : String) (value : α) (rest : List (String × α))
    (sorted : ((name, value) :: rest).Pairwise fun a b => a.1 < b.1) :
    (⟨(name, value) :: rest, sorted⟩ : Table α).get? name = some value := by
  simp [get?, lookup]

theorem erase_cons_self (name : String) (value : α) (rest : List (String × α))
    (sorted : ((name, value) :: rest).Pairwise fun a b => a.1 < b.1) :
    (⟨(name, value) :: rest, sorted⟩ : Table α).erase name =
      ⟨rest, (List.pairwise_cons.1 sorted).2⟩ := by
  have others : rest.filter (·.1 != name) = rest := by
    refine List.filter_eq_self.2 fun e mem => ?_
    have above := (List.pairwise_cons.1 sorted).1 e mem
    simpa using fun same : e.1 = name => String.lt_irrefl name (same ▸ above)
  simp [erase, others]

theorem insert_eq_self {t : Table α} {name : String} {value : α} (h : t.get? name = some value) :
    t.insert name value = t := by
  refine ext_get? fun other => ?_
  rw [get?_insert]
  split
  · rename_i same
    rw [← same, h]
  · rfl

theorem nodup_entries (t : Table α) : t.entries.Nodup :=
  t.sorted.imp fun lt same => by subst same; exact String.lt_irrefl _ lt

theorem values_insert_perm (t : Table α) (name : String) (value : α) :
    (t.insert name value).values.Perm (value :: (t.erase name).values) := by
  have absent : (name, value) ∉ (t.erase name).entries := by
    rw [mem_entries_iff, get?_erase, if_pos rfl]
    nofun
  have entries : (t.insert name value).entries.Perm ((name, value) :: (t.erase name).entries) := by
    refine (List.perm_ext_iff_of_nodup (nodup_entries _)
      (List.nodup_cons.2 ⟨absent, nodup_entries _⟩)).2 fun entry => ?_
    obtain ⟨other, a⟩ := entry
    rw [List.mem_cons, mem_entries_iff, mem_entries_iff, get?_insert, get?_erase]
    by_cases same : name = other
    · simp [same, eq_comm]
    · simp [same, Ne.symm same]
  exact entries.map Prod.snd

theorem values_perm {t : Table α} {name : String} {value : α} (h : t.get? name = some value) :
    t.values.Perm (value :: (t.erase name).values) := by
  have inserted := values_insert_perm t name value
  rwa [insert_eq_self h] at inserted

theorem erase_eq_self {t : Table α} {name : String} (h : t.contains name = false) :
    t.erase name = t := by
  have absent : t.get? name = none := by simpa [contains] using h
  refine ext_get? fun other => ?_
  rw [get?_erase]
  split
  · next same => rw [← same, absent]
  · rfl

theorem forall_insert {t : Table α} {P : String → α → Prop} {name : String} {value : α}
    (all : ∀ id a, t.get? id = some a → P id a) (new : P name value) :
    ∀ id a, (t.insert name value).get? id = some a → P id a := by
  intro id a found
  rw [get?_insert] at found
  split at found
  · rename_i same
    cases found
    exact same ▸ new
  · exact all id a found

theorem forall_erase {t : Table α} {P : String → α → Prop} {name : String}
    (all : ∀ id a, t.get? id = some a → P id a) :
    ∀ id a, (t.erase name).get? id = some a → P id a := by
  intro id a found
  rw [get?_erase] at found
  split at found
  · cases found
  · exact all id a found

end Table

namespace Registry

variable {σ α : Type} {kind : EntityKind σ α} {I : Registry α → σ → Prop}

/-! ## Letting go of all -/

theorem retireEntries_keeps
    (retire : ∀ {r s id owned}, I r s → r.get? id = some owned →
      I (r.erase id) (kind.retire owned.entity s)) :
    ∀ (entries : List (String × Owned α)) (sorted : entries.Pairwise fun a b => a.1 < b.1) {s : σ},
      I ⟨entries, sorted⟩ s →
        I .empty ((entries.map (·.2)).foldl (fun s owned => kind.retire owned.entity s) s)
  | [], _, _, h => h
  | (id, owned) :: rest, sorted, s, h => by
    refine retireEntries_keeps retire rest (List.pairwise_cons.1 sorted).2 ?_
    rw [← Table.erase_cons_self id owned rest sorted]
    exact retire h (Table.get?_cons_self id owned rest sorted)

/-- What every retirement keeps holds of the empty registry when all entities were retired. -/
theorem retireAll_keeps {registry : Registry α} {s : σ}
    (retire : ∀ {r s id owned}, I r s → r.get? id = some owned →
      I (r.erase id) (kind.retire owned.entity s))
    (h : I registry s) : I .empty (retireAll kind registry s) :=
  retireEntries_keeps retire registry.entries registry.sorted h

/-! ## Replacing each -/

theorem mapFoldEntries_eq {σ β γ : Type} {J : σ → Prop} {f : String → β → σ → γ × σ}
    {g : String → β → γ}
    (each : ∀ name value s, J s → (f name value s).1 = g name value ∧ J (f name value s).2) :
    ∀ (entries : List (String × β)) {s : σ}, J s →
      (Table.mapFoldEntries f entries s).1 = entries.map (fun e => (e.1, g e.1 e.2)) ∧
        J (Table.mapFoldEntries f entries s).2
  | [], _, h => ⟨rfl, h⟩
  | (name, value) :: rest, s, h => by
    obtain ⟨replaced, h⟩ := each name value s h
    obtain ⟨others, h⟩ := mapFoldEntries_eq each rest h
    exact ⟨by simp only [Table.mapFoldEntries, replaced, others, List.map_cons], h⟩

theorem mapEntities_fold (f : α → σ → α × σ) (registry : Registry α) (s : σ) :
    mapEntities f registry s = registry.mapFold (fun _ owned s =>
      (⟨owned.file, (f owned.entity s).1⟩, (f owned.entity s).2)) s := rfl

/-- If what an entity is replaced by depends only on what stays true of the surroundings, each
is replaced by itself. -/
theorem mapEntities_eq {J : σ → Prop} {f : α → σ → α × σ} {g : α → α}
    (each : ∀ a s, J s → (f a s).1 = g a ∧ J (f a s).2) (registry : Registry α) {s : σ} (h : J s) :
    (mapEntities f registry s).1 = registry.map (fun _ owned => ⟨owned.file, g owned.entity⟩) ∧
      J (mapEntities f registry s).2 := by
  have both := mapFoldEntries_eq (J := J)
    (f := fun _ (owned : Owned α) s =>
      ((⟨owned.file, (f owned.entity s).1⟩ : Owned α), (f owned.entity s).2))
    (g := fun _ owned => ⟨owned.file, g owned.entity⟩)
    (fun _ owned s h => by
      obtain ⟨replaced, h⟩ := each owned.entity s h
      exact ⟨by simp only [replaced], h⟩) registry.entries h
  refine ⟨?_, both.2⟩
  simp only [mapEntities_fold, Table.mapFold, Table.map, both.1]

/-- What replacing one entity keeps of the entities and the surroundings, replacing each keeps. -/
theorem mapEntities_keeps {J : σ → Prop} {P : α → Prop} {f : α → σ → α × σ}
    (each : ∀ a s, P a → J s → P (f a s).1 ∧ J (f a s).2) {registry : Registry α} {s : σ}
    (all : ∀ id owned, registry.get? id = some owned → P owned.entity) (h : J s) :
    (∀ id owned, (mapEntities f registry s).1.get? id = some owned → P owned.entity) ∧
      J (mapEntities f registry s).2 := by
  have entries : ∀ (list : List (String × Owned α)) {s : σ}, (∀ e ∈ list, P e.2.entity) → J s →
      let r := Table.mapFoldEntries (fun _ (owned : Owned α) s =>
        ((⟨owned.file, (f owned.entity s).1⟩ : Owned α), (f owned.entity s).2)) list s
      (∀ e ∈ r.1, P e.2.entity) ∧ J r.2 := by
    intro list
    induction list with
    | nil => exact fun all h => ⟨all, h⟩
    | cons entry rest ih =>
      intro s all h
      obtain ⟨first, h⟩ := each entry.2.entity s (all entry (.head _)) h
      obtain ⟨others, h⟩ := ih (fun e mem => all e (.tail _ mem)) h
      exact ⟨List.forall_mem_cons.2 ⟨first, others⟩, h⟩
  obtain ⟨all, h⟩ := entries registry.entries (fun e mem =>
    all e.1 e.2 ((Table.mem_entries_iff ..).1 mem)) h
  exact ⟨fun id owned found => all (id, owned) ((Table.mem_entries_iff ..).2 found), h⟩

/-- Replacing entities in two ways that agree as long as something stays true. -/
theorem mapEntities_congr {J : σ → Prop} {f f' : α → σ → α × σ}
    (each : ∀ a s, J s → f a s = f' a s ∧ J (f a s).2) (registry : Registry α) {s : σ} (h : J s) :
    mapEntities f registry s = mapEntities f' registry s := by
  have same : ∀ (entries : List (String × Owned α)) {s : σ}, J s →
      Table.mapFoldEntries (fun _ (owned : Owned α) s =>
        ((⟨owned.file, (f owned.entity s).1⟩ : Owned α), (f owned.entity s).2)) entries s =
      Table.mapFoldEntries (fun _ (owned : Owned α) s =>
        ((⟨owned.file, (f' owned.entity s).1⟩ : Owned α), (f' owned.entity s).2)) entries s := by
    intro entries
    induction entries with
    | nil => exact fun _ => rfl
    | cons entry rest ih =>
      intro s h
      obtain ⟨eq, h⟩ := each entry.2.entity s h
      simp only [Table.mapFoldEntries, eq] at h ⊢
      rw [ih h]
  simp only [mapEntities_fold, Table.mapFold, same registry.entries h]

/-! ## Loading -/

section Loading

variable
  (failed : ∀ {r s id entry s'}, I r s → kind.create id entry s = (none, s') → I r s')
  (created : ∀ {r s id entry file a s'}, I r s → r.contains id = false → kind.create id entry s =
    (some a, s') →
    I (r.insert id ⟨file, a⟩) s')

include failed created

theorem loadDefinition_keeps (file : String) (definition : String × Toml.Value) {l : Loading σ α}
    (h : I l.registry l.surroundings) :
    I (loadDefinition kind file l definition).registry
      (loadDefinition kind file l definition).surroundings := by
  obtain ⟨id, value⟩ := definition
  simp only [loadDefinition]
  split
  · exact h
  · split
    · exact h
    · split
      · exact h
      · rename_i new
        split
        · rename_i made
          exact failed h made
        · rename_i made
          exact created h (by simpa using new) made

/-- What every creation keeps, loading files keeps. -/
theorem loadFiles_keeps (files : List (String × ConfigDocument)) {l : Loading σ α}
    (h : I l.registry l.surroundings) :
    I (files.foldl (loadFile kind) l).registry (files.foldl (loadFile kind) l).surroundings := by
  let motive (l : Loading σ α) : Prop := I l.registry l.surroundings
  refine List.foldlRecOn (motive := motive) files _ h fun l h file _ => ?_
  refine List.foldlRecOn (motive := motive) file.2.toList _ h fun l h definition _ => ?_
  exact loadDefinition_keeps (I := I) failed created file.1 definition h

end Loading

/-! ## Taking over one file -/

section Syncing

variable {registry : Registry α} {file : String} {document : ConfigDocument}
  (updated : ∀ {r s id owned entry}, I r s → r.get? id = some owned →
    registry.get? id = some owned → Path.same owned.file file →
    definition? document id = some entry →
    I (r.insert id ⟨owned.file, (kind.update owned.entity entry s).1⟩)
      (kind.update owned.entity entry s).2)
  (retired : ∀ {r s id owned}, I r s → r.get? id = some owned → I (r.erase id)
    (kind.retire owned.entity s))

include updated retired

theorem syncOwned_keeps : ∀ (list : List (String × Owned α)) {y : Syncing σ α},
    (list.Pairwise fun a b => a.1 < b.1) →
    (∀ e ∈ list, registry.get? e.1 = some e.2 ∧ Path.same e.2.file file) →
    (∀ e ∈ list, y.registry.get? e.1 = some e.2) → I y.registry y.surroundings →
    I (list.foldl (syncOwned kind document) y).registry
      (list.foldl (syncOwned kind document) y).surroundings
  | [], _, _, _, _, h => h
  | (id, owned) :: rest, y, sorted, own, there, h => by
    obtain ⟨above, sorted⟩ := List.pairwise_cons.1 sorted
    have found := there _ (.head _)
    obtain ⟨original, same⟩ := own _ (.head _)
    have apart (e) (mem : e ∈ rest) : id ≠ e.1 := fun same =>
      String.lt_irrefl id (same ▸ above e mem)
    have later (e) (mem : e ∈ rest) := there e (.tail _ mem)
    refine syncOwned_keeps rest sorted (fun e mem => own e (.tail _ mem)) ?_ ?_
    · intro e mem
      unfold syncOwned
      simp only
      split <;> simp [apart e mem, later e mem]
    · unfold syncOwned
      simp only
      split
      · rename_i defined
        exact updated h found original same defined
      · exact retired h found

/-- What every operation on an entity keeps, taking over a file keeps. -/
theorem sync_keeps {s : σ}
    (failed : ∀ {r s id entry s'}, I r s → kind.create id entry s = (none, s') → I r s')
    (created : ∀ {r s id entry a s'}, I r s → r.contains id = false → kind.create id entry s =
      (some a, s') →
      I (r.insert id ⟨file, (kind.activate a s').1⟩) (kind.activate a s').2)
    (h : I registry s) :
    I (sync kind registry file document s).registry
      (sync kind registry file document s).surroundings := by
  unfold sync
  have sorted : (registry.ownedBy file).Pairwise fun a b => a.1 < b.1 := registry.sorted.filter _
  have own (e) (mem : e ∈ registry.ownedBy file) :
      registry.get? e.1 = some e.2 ∧ Path.same e.2.file file := by
    obtain ⟨listed, same⟩ := List.mem_filter.1 mem
    exact ⟨(Table.mem_entries_iff registry e.1 e.2).1 listed, same⟩
  let motive (y : Syncing σ α) : Prop := I y.registry y.surroundings
  refine List.foldlRecOn (motive := motive) document.keys _
    (syncOwned_keeps updated retired _ sorted own (fun e mem => (own e mem).1) h)
    fun y h id _ => ?_
  split
  · split
    · exact h
    · unfold syncNew
      split
      · exact h
      · rename_i new
        split
        · rename_i made
          exact failed h made
        · rename_i made
          exact created h (by simpa using new) made
  · exact h

end Syncing

end Registry

/-! ## Recording -/

namespace EntityKind

variable {σ α : Type}

/-- A kind with the surroundings after each operation written down, the latest first. -/
def recorded (kind : EntityKind σ α) : EntityKind (σ × List σ) α where
  create id entry s := let (made, after) := kind.create id entry s.1; (made, after, after :: s.2)
  update a entry s := let (a, after) := kind.update a entry s.1; (a, after, after :: s.2)
  retire a s := let after := kind.retire a s.1; (after, after :: s.2)
  activate a s := let (a, after) := kind.activate a s.1; (a, after, after :: s.2)
  loaded ids s := let after := kind.loaded ids s.1; (after, after :: s.2)
  loadedEach a s := let (a, after) := kind.loadedEach a s.1; (a, after, s.2)

theorem recorded_create (kind : EntityKind σ α) (id : String) (entry : ConfigEntry)
    (s : σ × List σ) : kind.recorded.create id entry s =
      ((kind.create id entry s.1).1, (kind.create id entry s.1).2,
        (kind.create id entry s.1).2 :: s.2) := rfl

end EntityKind

namespace Registry

variable {σ α : Type} (kind : EntityKind σ α)

theorem mapEntities_quiet (registry : Registry α) (s : σ) :
    mapEntities (fun a s => (a, s)) registry s = (registry, s) := by
  have same : ∀ entries : List (String × Owned α),
      Table.mapFoldEntries (fun _ (owned : Owned α) (s : σ) => (owned, s)) entries s =
        (entries, s) := by
    intro entries
    induction entries with
    | nil => rfl
    | cons entry rest ih => simp [Table.mapFoldEntries, ih]
  have eq := same registry.entries
  simp only [mapEntities, Table.mapFold, eq]

/-- If nothing follows for single entities, a load ends with what follows once. -/
theorem load_quiet (quiet : kind.loadedEach = fun a s => (a, s)) (registry : Registry α)
    (files : List (String × ConfigDocument)) (s : σ) :
    registry.load kind files s =
      let l := files.foldl (loadFile kind) ⟨.empty, retireAll kind registry s, {}⟩
      { l with surroundings := kind.loaded l.registry.keys l.surroundings } := by
  simp only [load, quiet, mapEntities_quiet]

end Registry
end ScriptHost
