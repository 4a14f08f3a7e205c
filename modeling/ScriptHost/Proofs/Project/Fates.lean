import ScriptHost.Proofs.Project.Holdings
/-!
# What becomes of every id when a file is taken over

Taking over a file tells its ids apart: what it defines still is given the new entry, what it does
not define any more goes, what it defines anew is made, unless another file has it or it cannot be
read; and all else stays as it is.

**Kinds with manners.** `Mannered`: of an entity of the kind can be seen what an entry makes of it,
no operation on one entity is seen at another, and to be given the entry that it has changes
nothing. What is proved here holds of every such kind.

**Results.**
* `sync_fates`: what becomes of each id.
* `sync_ids`: which ids the file has afterwards.
* `sync_counts`: what is reported of the entities that the file had.
* `sync_again`: taking over the file at once again changes nothing.
-/
namespace ScriptHost.Registry

variable {σ α E V : Type}

/-- What stands under an id: the file that defines it and its entity, as it looks. -/
def stand (look : σ → α → Option E) (registry : Registry α) (s : σ) (id : String) :
    Option (String × E) :=
  (registry.get? id).bind fun owned => (look s owned.entity).map fun x => (owned.file, x)

/-- What entities of a kind make of entries. -/
structure Manner (E V : Type) where
  /-- What an entry comes to, if it can be read. -/
  read : String → ConfigEntry → Option V
  /-- The entry that an entity has. -/
  entry : E → ConfigEntry
  /-- An entity that was given an entry is now another. -/
  Given : String → ConfigEntry → E → E → Prop
  /-- An entity was made of an entry. -/
  Made : String → ConfigEntry → V → E → Prop

/-- What becomes of an id when a file is taken over. -/
inductive Fate (m : Manner E V) (file : String) (document : ConfigDocument) (id : String) :
    Option (String × E) → Option (String × E) → Prop where
  /-- The file defines it still. -/
  | kept {own : String} {x x' : E} {entry : ConfigEntry} (same : Path.same own file)
    (defined : definition? document id = some entry) (given : m.Given id entry x x') :
    Fate m file document id (some (own, x)) (some (own, x'))
  /-- The file does not define it any more. -/
  | gone {own : String} {x : E} (same : Path.same own file)
    (undefined : definition? document id = none) : Fate m file document id (some (own, x)) none
  /-- Another file has it. -/
  | foreign {own : String} {x : E} (apart : Path.same own file = false) :
    Fate m file document id (some (own, x)) (some (own, x))
  /-- The file defines it anew. -/
  | made {entry : ConfigEntry} {config : V} {x : E} (defined : definition? document id = some entry)
    (read : m.read id entry = some config) (made : m.Made id entry config x) :
    Fate m file document id none (some (file, x))
  /-- The file defines it anew, but badly. -/
  | invalid {entry : ConfigEntry} (defined : definition? document id = some entry)
    (unread : m.read id entry = none) : Fate m file document id none none
  | absent (undefined : definition? document id = none) : Fate m file document id none none

/-- Entities of a kind behave as told, while something stays true of the registry and the
surroundings. -/
structure Mannered (kind : EntityKind σ α) (m : Manner E V) (I : Registry α → σ → Prop)
    (look : σ → α → Option E) : Prop where
  looks : ∀ {r s id owned}, I r s → r.get? id = some owned → ∃ x, look s owned.entity = some x
  updated : ∀ {r s id owned x}, I r s → r.get? id = some owned → look s owned.entity = some x →
    ∀ entry,
      let a' := (kind.update owned.entity entry s).1
      let s' := (kind.update owned.entity entry s).2
      I (r.insert id ⟨owned.file, a'⟩) s' ∧ (∃ x', look s' a' = some x' ∧ m.Given id entry x x') ∧
        ∀ other ≠ id, stand look (r.insert id ⟨owned.file, a'⟩) s' other = stand look r s other
  retired : ∀ {r s id owned}, I r s → r.get? id = some owned →
    I (r.erase id) (kind.retire owned.entity s) ∧
      ∀ other ≠ id,
        stand look (r.erase id) (kind.retire owned.entity s) other = stand look r s other
  failed : ∀ {s id entry s'}, kind.create id entry s = (none, s') → m.read id entry = none ∧ s' = s
  created : ∀ {r s id entry a s'}, I r s → r.contains id = false →
    kind.create id entry s = (some a, s') → ∀ file,
      let a' := (kind.activate a s').1
      let s'' := (kind.activate a s').2
      I (r.insert id ⟨file, a'⟩) s'' ∧
        (∃ x config, look s'' a' = some x ∧ m.read id entry = some config ∧
          m.Made id entry config x) ∧
        ∀ other ≠ id, stand look (r.insert id ⟨file, a'⟩) s'' other = stand look r s other
  /-- An entry that can be read is taken over. -/
  taken : ∀ {id entry x x'}, m.Given id entry x x' → m.read id entry = none ∨ m.entry x' = entry
  has : ∀ {id entry config x}, m.Made id entry config x → m.entry x = entry
  /-- To be given an entry that cannot be read, or that it has, does nothing to an entity. -/
  settled : ∀ {r s id owned x entry}, I r s → r.get? id = some owned →
    look s owned.entity = some x → m.read id entry = none ∨ m.entry x = entry → entry.same entry →
    kind.update owned.entity entry s = (owned.entity, s)

section Standing

variable {look : σ → α → Option E} {registry : Registry α} {s : σ} {id file : String}
  {owned : Owned α} {x : E}

theorem stand_of_known (known : registry.get? id = some owned)
    (seen : look s owned.entity = some x) :
    stand look registry s id = some (owned.file, x) := by
  rw [stand, known, Option.bind_some, seen, Option.map_some]

theorem stand_insert (seen : look s owned.entity = some x) :
    stand look (registry.insert id owned) s id = some (owned.file, x) :=
  stand_of_known (by rw [Table.get?_insert, if_pos rfl]) seen

theorem stand_of_unknown (unknown : registry.contains id = false) :
    stand look registry s id = none := by
  rw [Table.contains, Option.isSome_eq_false_iff, Option.isNone_iff_eq_none] at unknown
  rw [stand, unknown, Option.bind_none]

theorem known_of_stand {own : String} (stands : stand look registry s id = some (own, x)) :
    ∃ owned, registry.get? id = some owned ∧ owned.file = own ∧ look s owned.entity = some x := by
  obtain ⟨owned, known, is⟩ := Option.bind_eq_some_iff.1 stands
  obtain ⟨y, seen, is⟩ := Option.map_eq_some_iff.1 is
  cases is
  exact ⟨owned, known, rfl, seen⟩

theorem mem_ownedBy {e : String × Owned α} : e ∈ registry.ownedBy file ↔
    registry.get? e.1 = some e.2 ∧ Path.same e.2.file file := by
  rw [ownedBy, List.mem_filter]
  exact and_congr_left' (Table.mem_entries_iff registry e.1 e.2)

end Standing

namespace Mannered

variable {kind : EntityKind σ α} {m : Manner E V} {I : Registry α → σ → Prop}
  {look : σ → α → Option E} (mannered : Mannered kind m I look) (file : String)
  (document : ConfigDocument)

include mannered

/-! ## The entities that the file has -/

theorem syncOwned_fate {y : Syncing σ α} (h : I y.registry y.surroundings) {id : String}
    {owned : Owned α} (known : y.registry.get? id = some owned) (same : Path.same owned.file file) :
    let y' := syncOwned kind document y (id, owned)
    I y'.registry y'.surroundings ∧
      Fate m file document id (stand look y.registry y.surroundings id)
        (stand look y'.registry y'.surroundings id) ∧
      ∀ other ≠ id, y'.registry.get? other = y.registry.get? other ∧
        stand look y'.registry y'.surroundings other =
          stand look y.registry y.surroundings other := by
  obtain ⟨x, seen⟩ := mannered.looks h known
  rw [stand_of_known known seen]
  simp only [syncOwned]
  cases defined : definition? document id with
  | some entry =>
    obtain ⟨h', ⟨x', seen', given⟩, others⟩ := mannered.updated h known seen entry
    refine ⟨h', ?_, fun other differs => ⟨by simp [differs.symm], others other differs⟩⟩
    rw [stand_insert seen']
    exact .kept same defined given
  | none =>
    obtain ⟨h', others⟩ := mannered.retired h known
    refine ⟨h', ?_, fun other differs => ⟨by simp [differs.symm], others other differs⟩⟩
    rw [stand_of_unknown (by simp [Table.contains])]
    exact .gone same defined

theorem syncOwned_fates : ∀ (list : List (String × Owned α)) {y : Syncing σ α},
    (list.Pairwise fun a b => a.1 < b.1) →
    (∀ e ∈ list, y.registry.get? e.1 = some e.2 ∧ Path.same e.2.file file) →
    I y.registry y.surroundings →
    let y' := list.foldl (syncOwned kind document) y
    I y'.registry y'.surroundings ∧
      (∀ e ∈ list, Fate m file document e.1 (stand look y.registry y.surroundings e.1)
        (stand look y'.registry y'.surroundings e.1)) ∧
      ∀ id, id ∉ list.map (·.1) →
        stand look y'.registry y'.surroundings id = stand look y.registry y.surroundings id
  | [], _, _, _, h => ⟨h, by simp, fun _ _ => rfl⟩
  | (id, owned) :: rest, y, sorted, there, h => by
    obtain ⟨above, sorted⟩ := List.pairwise_cons.1 sorted
    obtain ⟨known, same⟩ := there _ (.head _)
    have apart : ∀ e ∈ rest, e.1 ≠ id := fun e mem isFirst =>
      String.lt_irrefl id (isFirst ▸ above e mem)
    obtain ⟨h₁, fate, others⟩ := mannered.syncOwned_fate file document h known same
    obtain ⟨h', fates, outside⟩ := syncOwned_fates rest sorted (fun e mem => by
      rw [(others e.1 (apart e mem)).1]
      exact there e (.tail _ mem)) h₁
    rw [List.foldl_cons]
    refine ⟨h', fun e mem => ?_, fun other absent => ?_⟩
    · rcases List.mem_cons.1 mem with rfl | later
      · rw [outside id fun mem => ?_]
        · exact fate
        · obtain ⟨e, later, isFirst⟩ := List.mem_map.1 mem
          exact apart e later isFirst
      · rw [← (others e.1 (apart e later)).2]
        exact fates e later
    · rw [List.map_cons, List.mem_cons, not_or] at absent
      rw [outside other absent.2, (others other absent.1).2]

/-! ## The other ids of the file -/

theorem syncListed_fate {isOwned : String → Bool} {y : Syncing σ α}
    (h : I y.registry y.surroundings) {id : String} (notOwned : isOwned id = false)
    (apart : ∀ own x, stand look y.registry y.surroundings id = some (own, x) →
      Path.same own file = false) :
    let y' := syncListed kind file document isOwned y id
    I y'.registry y'.surroundings ∧
      Fate m file document id (stand look y.registry y.surroundings id)
        (stand look y'.registry y'.surroundings id) ∧
      ∀ other ≠ id,
        stand look y'.registry y'.surroundings other =
          stand look y.registry y.surroundings other := by
  have foreign (known : y.registry.contains id = true) :
      Fate m file document id (stand look y.registry y.surroundings id)
        (stand look y.registry y.surroundings id) := by
    obtain ⟨owned, known⟩ := Option.isSome_iff_exists.1 known
    obtain ⟨x, seen⟩ := mannered.looks h known
    have stands := stand_of_known known seen
    rw [stands]
    exact .foreign (apart _ _ stands)
  simp only [syncListed]
  cases defined : definition? document id with
  | none =>
    refine ⟨h, ?_, fun _ _ => rfl⟩
    rw [Option.elim_none]
    cases known : y.registry.contains id with
    | true => exact foreign known
    | false =>
      rw [stand_of_unknown known]
      exact .absent defined
  | some entry =>
    rw [Option.elim_some, notOwned]
    simp only [Bool.false_eq_true, if_false, syncNew]
    cases known : y.registry.contains id with
    | true => exact ⟨h, foreign known, fun _ _ => rfl⟩
    | false =>
      simp only [Bool.false_eq_true, if_false]
      rw [stand_of_unknown known]
      cases made : kind.create id entry y.surroundings with
      | mk entity s' =>
        cases entity with
        | none =>
          obtain ⟨unread, rfl⟩ := mannered.failed made
          refine ⟨h, ?_, fun _ _ => rfl⟩
          rw [stand_of_unknown known]
          exact .invalid defined unread
        | some entity =>
          obtain ⟨h', ⟨x, config, seen, read, isMade⟩, others⟩ := mannered.created h known made file
          refine ⟨h', ?_, others⟩
          rw [stand_insert seen]
          exact .made defined read isMade

theorem syncListed_fates (isOwned : String → Bool) : ∀ (ids : List String) {y : Syncing σ α},
    ids.Nodup → I y.registry y.surroundings →
    (∀ id ∈ ids, isOwned id = false → ∀ own x,
      stand look y.registry y.surroundings id = some (own, x) → Path.same own file = false) →
    let y' := ids.foldl (syncListed kind file document isOwned) y
    I y'.registry y'.surroundings ∧
      (∀ id ∈ ids, isOwned id = false → Fate m file document id
        (stand look y.registry y.surroundings id) (stand look y'.registry y'.surroundings id)) ∧
      ∀ id, id ∉ ids ∨ isOwned id →
        stand look y'.registry y'.surroundings id = stand look y.registry y.surroundings id
  | [], _, _, h, _ => ⟨h, by simp, fun _ _ => rfl⟩
  | first :: rest, y, nodup, h, apart => by
    obtain ⟨once, nodup⟩ := List.nodup_cons.1 nodup
    have step : ∃ y₁, syncListed kind file document isOwned y first = y₁ ∧
        I y₁.registry y₁.surroundings ∧
        (isOwned first = false → Fate m file document first
          (stand look y.registry y.surroundings first)
          (stand look y₁.registry y₁.surroundings first)) ∧
        ∀ other, other ≠ first ∨ isOwned other → stand look y₁.registry y₁.surroundings other =
          stand look y.registry y.surroundings other := by
      cases owned : isOwned first with
      | false =>
        obtain ⟨h₁, fate, others⟩ :=
          mannered.syncListed_fate file document h owned (apart first (.head _) owned)
        refine ⟨_, rfl, h₁, fun _ => fate, fun other away => others other fun same => ?_⟩
        rcases away with differs | isOwn
        · exact differs same
        · rw [same, owned] at isOwn
          cases isOwn
      | true =>
        have stays : syncListed kind file document isOwned y first = y := by
          rw [syncListed]
          cases definition? document first <;> simp [owned]
        exact ⟨y, stays, h, by simp, fun _ _ => rfl⟩
    obtain ⟨y₁, eq, h₁, fate, others⟩ := step
    obtain ⟨h', fates, outside⟩ :=
      syncListed_fates isOwned rest nodup h₁ fun id mem notOwned own x =>
      by
        have differs : id ≠ first := fun same => once (same ▸ mem)
        rw [others id (.inl differs)]
        exact apart id (.tail _ mem) notOwned own x
    rw [List.foldl_cons, eq]
    refine ⟨h', fun id mem notOwned => ?_, fun id away => ?_⟩
    · rcases List.mem_cons.1 mem with rfl | later
      · rw [outside id (.inl once)]
        exact fate notOwned
      · rw [← others id (.inl fun same => once (same ▸ later))]
        exact fates id later notOwned
    · rcases away with absent | isOwn
      · rw [List.mem_cons, not_or] at absent
        rw [outside id (.inl absent.2), others id (.inl absent.1)]
      · rw [outside id (.inr isOwn), others id (.inr isOwn)]

/-! ## The whole file -/

theorem sync_fates {registry : Registry α} {s : σ} (h : I registry s) :
    let y := sync kind registry file document s
    I y.registry y.surroundings ∧ ∀ id, Fate m file document id (stand look registry s id)
      (stand look y.registry y.surroundings id) := by
  have sorted : (registry.ownedBy file).Pairwise fun a b => a.1 < b.1 := registry.sorted.filter _
  obtain ⟨failed, eq⟩ := sync_eq kind file document registry s
  obtain ⟨h₁, fates, outside⟩ := mannered.syncOwned_fates file document
    (y := ⟨registry, s, { failed }⟩) _ sorted (fun e mem => mem_ownedBy.1 mem) h
  have notOwned {id : String} (differs : (registry.ownedBy file).any (·.1 == id) = false) :
      id ∉ (registry.ownedBy file).map (·.1) := by
    intro mem
    obtain ⟨e, owns, rfl⟩ := List.mem_map.1 mem
    exact List.any_eq_false.1 differs e owns (by simp)
  have apart {id : String} (differs : (registry.ownedBy file).any (·.1 == id) = false)
      {own : String} {x : E} (stands : stand look registry s id = some (own, x)) :
      Path.same own file = false := by
    obtain ⟨owned, known, rfl, -⟩ := known_of_stand stands
    rw [Bool.eq_false_iff]
    intro same
    exact notOwned differs (List.mem_map.2 ⟨(id, owned), mem_ownedBy.2 ⟨known, same⟩, rfl⟩)
  have keys : document.keys.Nodup := by
    refine List.pairwise_map.2 (document.sorted.imp fun lt same => ?_)
    rw [same] at lt
    exact String.lt_irrefl _ lt
  obtain ⟨h₂, fates', outside'⟩ := mannered.syncListed_fates file document
    (fun id => (registry.ownedBy file).any (·.1 == id)) document.keys keys h₁
    fun id _ differs own x stands => by
      rw [outside id (notOwned differs)] at stands
      exact apart differs stands
  rw [eq]
  refine ⟨h₂, fun id => ?_⟩
  cases differs : (registry.ownedBy file).any (·.1 == id) with
  | true =>
    obtain ⟨e, mem, isId⟩ := List.any_eq_true.1 differs
    obtain rfl := beq_iff_eq.1 isId
    rw [outside' e.1 (.inr differs)]
    exact fates e mem
  | false =>
    rw [← outside id (notOwned differs)]
    by_cases listed : id ∈ document.keys
    · exact fates' id listed differs
    · rw [outside' id (.inl listed), outside id (notOwned differs)]
      have undefined : definition? document id = none := by
        rw [Table.mem_keys, Option.not_isSome_iff_eq_none] at listed
        rw [definition?, listed, Option.bind_none]
      cases stands : stand look registry s id with
      | none => exact .absent undefined
      | some e => exact .foreign (apart differs stands)

omit file document

theorem mem_ids_iff {registry : Registry α} {s : σ} (h : I registry s) {file id : String} :
    id ∈ (registry.ownedBy file).map (·.1) ↔
      ∃ own x, stand look registry s id = some (own, x) ∧ Path.same own file := by
  constructor
  · intro mem
    obtain ⟨⟨id, owned⟩, owns, rfl⟩ := List.mem_map.1 mem
    obtain ⟨known, same⟩ := mem_ownedBy.1 owns
    obtain ⟨x, seen⟩ := mannered.looks h known
    exact ⟨owned.file, x, stand_of_known known seen, same⟩
  · rintro ⟨own, x, stands, same⟩
    obtain ⟨owned, known, rfl, -⟩ := known_of_stand stands
    exact List.mem_map.2 ⟨(id, owned), mem_ownedBy.2 ⟨known, same⟩, rfl⟩

/-- Afterwards the file has the ids that it defines, of those that it had, and of those that no file
had, if they can be read. -/
theorem sync_ids {registry : Registry α} {s : σ} (h : I registry s) (file : String)
    (document : ConfigDocument) (id : String) :
    id ∈ ((sync kind registry file document s).registry.ownedBy file).map (·.1) ↔
      ∃ entry, definition? document id = some entry ∧
        (id ∈ (registry.ownedBy file).map (·.1) ∨
          stand look registry s id = none ∧ (m.read id entry).isSome) := by
  obtain ⟨h', fates⟩ := mannered.sync_fates file document h
  rw [mannered.mem_ids_iff h', mannered.mem_ids_iff h]
  have fate := fates id
  generalize stand look registry s id = before at fate ⊢
  generalize stand look _ _ id = after at fate ⊢
  cases fate with
  | kept same defined given => simp [same, defined]
  | gone same undefined => simp [undefined]
  | foreign apart => simp [apart]
  | made defined read made => simp [defined, read, Path.same]
  | invalid defined unread => simp [defined, unread]
  | absent undefined => simp [undefined]

end Mannered

/-! ## Reports -/

section Reports

variable (kind : EntityKind σ α) (file : String) (document : ConfigDocument)

theorem syncOwned_counts (list : List (String × Owned α)) : ∀ y : Syncing σ α,
    let y' := list.foldl (syncOwned kind document) y
    y'.report.updated =
        y.report.updated + (list.filter fun e => (definition? document e.1).isSome).length ∧
      y'.report.removed =
        y.report.removed + (list.filter fun e => (definition? document e.1).isNone).length := by
  induction list with
  | nil => exact fun _ => ⟨rfl, rfl⟩
  | cons e rest ih =>
    intro y
    obtain ⟨updated, removed⟩ := ih (syncOwned kind document y e)
    simp only [List.foldl_cons, updated, removed]
    cases defined : definition? document e.1 <;> simp [syncOwned, defined] <;> omega

theorem syncListed_counts (isOwned : String → Bool) (ids : List String) : ∀ y : Syncing σ α,
    let y' := ids.foldl (syncListed kind file document isOwned) y
    y'.report.updated = y.report.updated ∧ y'.report.removed = y.report.removed := by
  induction ids with
  | nil => exact fun _ => ⟨rfl, rfl⟩
  | cons id rest ih =>
    intro y
    obtain ⟨updated, removed⟩ := ih (syncListed kind file document isOwned y id)
    simp only [List.foldl_cons, updated, removed]
    rw [syncListed]
    cases definition? document id with
    | none => exact ⟨rfl, rfl⟩
    | some entry =>
      rw [Option.elim_some]
      unfold syncNew
      repeat' split
      all_goals exact ⟨rfl, rfl⟩

/-- Of the entities that the file had, those are updated that it defines still, and the others
are removed. -/
theorem sync_counts (registry : Registry α) (s : σ) :
    let report := (sync kind registry file document s).report
    let owned := registry.ownedBy file
    report.updated = (owned.filter fun e => (definition? document e.1).isSome).length ∧
      report.removed = (owned.filter fun e => (definition? document e.1).isNone).length ∧
      report.updated + report.removed = owned.length := by
  obtain ⟨failed, eq⟩ := sync_eq kind file document registry s
  obtain ⟨updated, removed⟩ :=
    syncOwned_counts kind document (registry.ownedBy file) ⟨registry, s, { failed }⟩
  obtain ⟨updated', removed'⟩ := syncListed_counts kind file document
    (fun id => (registry.ownedBy file).any (·.1 == id)) document.keys
    ((registry.ownedBy file).foldl (syncOwned kind document) ⟨registry, s, { failed }⟩)
  simp only [eq]
  rw [updated', removed', updated, removed, Nat.zero_add, Nat.zero_add]
  refine ⟨rfl, rfl, ?_⟩
  have parts := List.length_eq_length_filter_add (l := registry.ownedBy file)
    fun e => (definition? document e.1).isSome
  rw [parts]
  simp

end Reports

/-! ## Once more -/

namespace Mannered

variable {kind : EntityKind σ α} {m : Manner E V} {I : Registry α → σ → Prop}
  {look : σ → α → Option E} (mannered : Mannered kind m I look) {file : String}
  {document : ConfigDocument} {registry : Registry α} {s : σ}

include mannered

/-- A file of which every entry is taken over, or cannot be, has nothing to say. -/
theorem sync_rests (h : I registry s)
    (same : ∀ id entry, definition? document id = some entry → entry.same entry)
    (owned : ∀ id own x, stand look registry s id = some (own, x) → Path.same own file →
      ∃ entry, definition? document id = some entry ∧ (m.read id entry = none ∨ m.entry x = entry))
    (new : ∀ id entry, definition? document id = some entry → stand look registry s id = none →
      m.read id entry = none) :
    ∃ report, sync kind registry file document s = ⟨registry, s, report⟩ ∧
      report.created = 0 ∧ report.removed = 0 := by
  -- every step leaves all but the report alone
  let Rests (y : Syncing σ α) : Prop := y.registry = registry ∧ y.surroundings = s ∧
    y.report.created = 0 ∧ y.report.removed = 0
  have first (y : Syncing σ α) (e : String × Owned α) (mem : e ∈ registry.ownedBy file)
      (rests : Rests y) : Rests (syncOwned kind document y e) := by
    obtain ⟨rfl, rfl, created, removed⟩ := rests
    obtain ⟨known, isOwn⟩ := mem_ownedBy.1 mem
    obtain ⟨x, seen⟩ := mannered.looks h known
    obtain ⟨entry, defined, taken⟩ := owned e.1 _ x (stand_of_known known seen) isOwn
    have stays := mannered.settled h known seen taken (same e.1 entry defined)
    simp only [syncOwned, defined, stays]
    exact ⟨Table.insert_eq_self known, rfl, created, removed⟩
  have later (isOwned : String → Bool) (y : Syncing σ α) (id : String) (rests : Rests y) :
      Rests (syncListed kind file document isOwned y id) := by
    obtain ⟨rfl, rfl, created, removed⟩ := rests
    rw [syncListed]
    cases defined : definition? document id with
    | none => exact ⟨rfl, rfl, created, removed⟩
    | some entry =>
      rw [Option.elim_some]
      split
      · exact ⟨rfl, rfl, created, removed⟩
      · unfold syncNew
        split
        · exact ⟨rfl, rfl, created, removed⟩
        · rename_i unknown
          have unknown : y.registry.contains id = false := by simpa using unknown
          have unread := new id entry defined (stand_of_unknown unknown)
          split
          · rename_i made
            obtain ⟨-, rfl⟩ := mannered.failed made
            exact ⟨rfl, rfl, created, removed⟩
          · rename_i made
            obtain ⟨-, ⟨_, config, -, read, -⟩, -⟩ := mannered.created h unknown made file
            cases unread.symm.trans read
  obtain ⟨failed, eq⟩ := sync_eq kind file document registry s
  have begun : Rests ⟨registry, s, { failed }⟩ := ⟨rfl, rfl, rfl, rfl⟩
  have owns := List.foldlRecOn (motive := Rests) (registry.ownedBy file) (syncOwned kind document)
    begun fun y rests e mem => first y e mem rests
  have all := List.foldlRecOn (motive := Rests) document.keys
    (syncListed kind file document fun id => (registry.ownedBy file).any (·.1 == id))
    owns fun y rests id _ => later _ y id rests
  rw [eq]
  generalize document.keys.foldl _ _ = y at all ⊢
  obtain ⟨rfl, rfl, created, removed⟩ := all
  exact ⟨y.report, rfl, created, removed⟩

theorem sync_again (file : String) (h : I registry s)
    (same : ∀ id entry, definition? document id = some entry → entry.same entry) :
    let y := sync kind registry file document s
    ∃ report, sync kind y.registry file document y.surroundings =
      ⟨y.registry, y.surroundings, report⟩ ∧
      report.created = 0 ∧ report.removed = 0 := by
  obtain ⟨h', fates⟩ := mannered.sync_fates file document h
  refine mannered.sync_rests h' same (fun id own x stands isOwn => ?_)
    fun id entry defined nothing => ?_
  · have fate := fates id
    rw [stands] at fate
    generalize stand look registry s id = before at fate
    cases fate with
    | kept _ defined given => exact ⟨_, defined, mannered.taken given⟩
    | foreign apart =>
      rw [isOwn] at apart
      cases apart
    | made defined _ made => exact ⟨_, defined, .inr (mannered.has made)⟩
  · have fate := fates id
    rw [nothing] at fate
    generalize stand look registry s id = before at fate
    cases fate with
    | gone _ undefined => cases undefined.symm.trans defined
    | invalid defined' unread =>
      cases defined'.symm.trans defined
      exact unread
    | absent undefined => cases undefined.symm.trans defined

end Mannered

end ScriptHost.Registry
