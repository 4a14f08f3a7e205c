import ScriptHost.Proofs.Project.Registries
/-!
# Forgetting what is kept besides

A kind of entities may be followed by another one that does the same and keeps something
besides, of its entities or of what they share. Whatever is done to the registry of the one is
done to that of the other, and what is left after forgetting is the same.

**Results.**
* `Registry.load_forgets`, `sync_forgets`, `clear_forgets`, `mapEntities_forgets`: forgetting
  commutes with every operation on a registry.
* `Registry.load_recorded`, `sync_recorded`, `retireAll_recorded`: recording changes nothing.
-/
namespace ScriptHost

variable {σ τ α β : Type} {f : σ → τ} {e : α → β}

/-- A kind that does what a plain one does and keeps something besides; `f` forgets that of the
surroundings and `e` of an entity. -/
structure EntityKind.Forgets (kind : EntityKind σ α) (plain : EntityKind τ β) (f : σ → τ)
    (e : α → β) : Prop where
  create : ∀ id entry s, plain.create id entry (f s) =
    ((kind.create id entry s).1.map e, f (kind.create id entry s).2)
  update : ∀ a entry s, plain.update (e a) entry (f s) =
    (e (kind.update a entry s).1, f (kind.update a entry s).2)
  retire : ∀ a s, plain.retire (e a) (f s) = f (kind.retire a s)
  activate : ∀ a s, plain.activate (e a) (f s) = (e (kind.activate a s).1, f (kind.activate a s).2)
  loaded : ∀ ids s, plain.loaded ids (f s) = f (kind.loaded ids s)
  loadedEach : ∀ a s, plain.loadedEach (e a) (f s) =
    (e (kind.loadedEach a s).1, f (kind.loadedEach a s).2)

namespace Registry

variable {kind : EntityKind σ α} {plain : EntityKind τ β} {registry : Registry α}

/-- A registry when what its entities keep besides is forgotten. -/
def forget (e : α → β) (registry : Registry α) : Registry β :=
  registry.map fun _ owned => ⟨owned.file, e owned.entity⟩

/-- What is left of loading. -/
def Loading.forget (f : σ → τ) (e : α → β) (l : Loading σ α) : Loading τ β :=
  ⟨l.registry.forget e, f l.surroundings, l.report⟩

def Syncing.forget (f : σ → τ) (e : α → β) (y : Syncing σ α) : Syncing τ β :=
  ⟨y.registry.forget e, f y.surroundings, y.report⟩

/-! ## Registries -/

@[simp] theorem get?_forget (registry : Registry α) (id : String) :
    (registry.forget e).get? id =
      (registry.get? id).map fun owned => ⟨owned.file, e owned.entity⟩ :=
  Table.get?_map ..

@[simp] theorem contains_forget (registry : Registry α) (id : String) :
    (registry.forget e).contains id = registry.contains id := by
  simp [Table.contains]

@[simp] theorem keys_forget (registry : Registry α) : (registry.forget e).keys = registry.keys := by
  simp [forget, Table.keys, Table.map]

@[simp] theorem forget_id (registry : Registry α) : registry.forget id = registry := by
  refine Table.ext_get? fun name => ?_
  rw [get?_forget]
  cases registry.get? name <;> rfl

theorem insert_forget (registry : Registry α) (id file : String) (a : α) :
    forget e (registry.insert id ⟨file, a⟩) = (registry.forget e).insert id ⟨file, e a⟩ := by
  refine Table.ext_get? fun name => ?_
  rw [get?_forget, Table.get?_insert, Table.get?_insert, get?_forget]
  split <;> rfl

theorem erase_forget (registry : Registry α) (id : String) :
    forget e (registry.erase id) = (registry.forget e).erase id := by
  refine Table.ext_get? fun name => ?_
  rw [get?_forget, Table.get?_erase, Table.get?_erase, get?_forget]
  split <;> rfl

theorem ownedBy_forget (registry : Registry α) (file : String) : (registry.forget e).ownedBy file =
    (registry.ownedBy file).map fun entry => (entry.1, ⟨entry.2.file, e entry.2.entity⟩) := by
  simp only [ownedBy, forget, Table.toList, Table.map, List.filter_map]
  rfl

/-! ## Operations on all entities -/

/-- Forgetting after replacing each entity is replacing each after forgetting. -/
theorem mapEntities_forgets {step : α → σ → α × σ} {plainStep : β → τ → β × τ}
    (registry : Registry α)
    (each : ∀ id owned, registry.get? id = some owned → ∀ s, plainStep (e owned.entity) (f s) =
      (e (step owned.entity s).1, f (step owned.entity s).2)) (s : σ) :
    mapEntities plainStep (registry.forget e) (f s) =
      ((mapEntities step registry s).1.forget e, f (mapEntities step registry s).2) := by
  have entries : ∀ (list : List (String × Owned α)) (s : σ),
      (∀ entry ∈ list, ∀ s, plainStep (e entry.2.entity) (f s) =
        (e (step entry.2.entity s).1, f (step entry.2.entity s).2)) →
      Table.mapFoldEntries (fun _ (owned : Owned β) t =>
          ((⟨owned.file, (plainStep owned.entity t).1⟩ : Owned β), (plainStep owned.entity t).2))
        (list.map fun entry => (entry.1, ⟨entry.2.file, e entry.2.entity⟩)) (f s) =
      let all := Table.mapFoldEntries (fun _ (owned : Owned α) s =>
          ((⟨owned.file, (step owned.entity s).1⟩ : Owned α), (step owned.entity s).2)) list s
      (all.1.map fun entry => (entry.1, ⟨entry.2.file, e entry.2.entity⟩), f all.2) := by
    intro list
    induction list with
    | nil => exact fun _ _ => rfl
    | cons entry rest ih =>
      intro s each
      have rest := ih (step entry.2.entity s).2 fun other mem => each other (.tail _ mem)
      simp only [List.map_cons, Table.mapFoldEntries, each entry (.head _) s]
      simp only [rest]
  have all := entries registry.entries s fun entry mem =>
    each entry.1 entry.2 ((Table.mem_entries_iff ..).1 mem)
  simp only [mapEntities_fold, Table.mapFold, forget, Table.map, all]

variable (h : kind.Forgets plain f e)
include h

theorem retireAll_forgets (registry : Registry α) (s : σ) :
    retireAll plain (registry.forget e) (f s) = f (retireAll kind registry s) := by
  unfold retireAll
  rw [show (registry.forget e).values = registry.values.map fun owned =>
    ⟨owned.file, e owned.entity⟩ by simp [forget, Table.values, Table.map], List.foldl_map]
  exact List.foldl_hom f fun s owned => h.retire owned.entity s

/-! ## Loading -/

theorem loadFile_forgets (l : Loading σ α) (file : String × ConfigDocument) :
    loadFile plain (l.forget f e) file = (loadFile kind l file).forget f e := by
  refine List.foldl_hom (Loading.forget f e) fun l definition => ?_
  obtain ⟨id, value⟩ := definition
  simp only [loadDefinition, Loading.forget, h.create, contains_forget]
  cases ConfigEntry.ofValue? value with
  | none => rfl
  | some entry =>
    by_cases disabled : entry.isDisabled
    · simp only [disabled, if_true]
    · by_cases known : l.registry.contains id
      · simp only [disabled, known, if_true, Bool.false_eq_true, if_false]
      · simp only [disabled, known, Bool.false_eq_true, if_false]
        obtain ⟨_ | made, after⟩ := kind.create id entry l.surroundings
        · rfl
        · simp only [Option.map_some, insert_forget]

theorem load_forgets (registry : Registry α) (files : List (String × ConfigDocument)) (s : σ) :
    (registry.forget e).load plain files (f s) = (registry.load kind files s).forget f e := by
  let start : Loading σ α := ⟨.empty, retireAll kind registry s, {}⟩
  have filled : files.foldl (loadFile plain) (start.forget f e) =
      (files.foldl (loadFile kind) start).forget f e :=
    List.foldl_hom (Loading.forget f e) (loadFile_forgets h)
  have begin : start.forget f e = ⟨.empty, retireAll plain (registry.forget e) (f s), {}⟩ := by
    rw [retireAll_forgets h]
    rfl
  unfold load
  rw [← begin, filled]
  simp only [Loading.forget, keys_forget, h.loaded,
    mapEntities_forgets _ (fun _ owned _ s => h.loadedEach owned.entity s)]
  rfl

/-! ## Taking over one file -/

theorem syncOwned_forgets (document : ConfigDocument) (y : Syncing σ α)
    (owned : String × Owned α) :
    syncOwned plain document (y.forget f e) (owned.1, ⟨owned.2.file, e owned.2.entity⟩) =
      (syncOwned kind document y owned).forget f e := by
  obtain ⟨id, file, entity⟩ := owned
  simp only [syncOwned, Syncing.forget, h.update, h.retire]
  cases definition? document id with
  | none => simp only [erase_forget]
  | some entry => simp only [insert_forget]

theorem syncNew_forgets (file : String) (y : Syncing σ α) (id : String) (entry : ConfigEntry) :
    syncNew plain file (y.forget f e) id entry = (syncNew kind file y id entry).forget f e := by
  simp only [syncNew, Syncing.forget, h.create, contains_forget]
  by_cases known : y.registry.contains id
  · simp only [known, if_true]
  · simp only [known, Bool.false_eq_true, if_false]
    obtain ⟨_ | made, after⟩ := kind.create id entry y.surroundings
    · rfl
    · simp only [Option.map_some, h.activate, insert_forget]

theorem sync_forgets (registry : Registry α) (file : String) (document : ConfigDocument) (s : σ) :
    (registry.forget e).sync plain file document (f s) =
      (registry.sync kind file document s).forget f e := by
  let failed := (document.values.filter fun value => (ConfigEntry.ofValue? value).isNone).length
  let start : Syncing σ α := ⟨registry, s, { failed }⟩
  have owned : ((registry.forget e).ownedBy file).foldl (syncOwned plain document)
        (start.forget f e) =
      ((registry.ownedBy file).foldl (syncOwned kind document) start).forget f e := by
    rw [ownedBy_forget, List.foldl_map]
    exact List.foldl_hom (Syncing.forget f e) (syncOwned_forgets h document)
  have begin : start.forget f e = ⟨registry.forget e, f s, { failed }⟩ := rfl
  unfold sync
  simp only
  rw [← begin, owned]
  refine List.foldl_hom (Syncing.forget f e) fun y id => ?_
  cases definition? document id with
  | none => rfl
  | some entry =>
    have same : ((registry.forget e).ownedBy file).any (fun entry => entry.1 == id) =
        (registry.ownedBy file).any (fun entry => entry.1 == id) := by
      rw [ownedBy_forget, List.any_map]
      rfl
    simp only [same]
    split
    · rfl
    · exact syncNew_forgets h file y id entry

theorem clear_forgets (registry : Registry α) (s : σ) :
    (registry.forget e).clear plain (f s) =
      ((registry.clear kind s).1.forget e, f (registry.clear kind s).2) := by
  unfold clear
  rw [retireAll_forgets h]
  rfl

end Registry

/-! ## Recording -/

theorem EntityKind.recorded_forgets (kind : EntityKind σ α) :
    kind.recorded.Forgets kind Prod.fst id :=
  ⟨fun _ _ _ => by simp [EntityKind.recorded_create], fun _ _ _ => rfl, fun _ _ => rfl,
    fun _ _ => rfl,
    fun _ _ => rfl, fun _ _ => rfl⟩

namespace Registry

variable (kind : EntityKind σ α)

theorem retireAll_recorded (registry : Registry α) (s : σ × List σ) :
    (retireAll kind.recorded registry s).1 = retireAll kind registry s.1 := by
  rw [← retireAll_forgets kind.recorded_forgets, forget_id]

/-- Recording changes nothing of loading. -/
theorem load_recorded (registry : Registry α) (files : List (String × ConfigDocument))
    (s : σ × List σ) : let l := registry.load kind.recorded files s
    ⟨l.registry, l.surroundings.1, l.report⟩ = registry.load kind files s.1 := by
  have same := load_forgets kind.recorded_forgets registry files s
  rwa [forget_id, Loading.forget, forget_id, eq_comm] at same

theorem sync_recorded (registry : Registry α) (file : String) (document : ConfigDocument)
    (s : σ × List σ) : let y := registry.sync kind.recorded file document s
    ⟨y.registry, y.surroundings.1, y.report⟩ = registry.sync kind file document s.1 := by
  have same := sync_forgets kind.recorded_forgets registry file document s
  rwa [forget_id, Syncing.forget, forget_id, eq_comm] at same

end Registry
end ScriptHost
