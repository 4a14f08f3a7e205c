import ScriptHost.Proofs.Project.Holdings
/-!
# What a load makes of every entry

The files of a directory, one after the other, have top-level entries. Each of them is loaded, in
conflict with one that was loaded before, disabled, or fails.

**Kinds that can be seen.** `Shown`: an entity of a kind is made of every entry that can be read,
and of no other; it has the entry and what that comes to as long as others are made. That needs
nothing of what there was before.

**Results.**
* `Shown.load_accounts`: the report counts what became of each entry, and the registry has the
  entities that were loaded.
* `firstOf_definitions`: an entity is made of the definition in the first file that has one which
  can be read.
-/
namespace ScriptHost

namespace Registry

variable {V : Type}

/-! ## Outcomes -/

/-- What a load makes of a top-level entry. -/
inductive Outcome where
  | loaded
  | conflict
  | failed
  | disabled
  deriving DecidableEq, Repr

section Outcomes

variable (read : String → ConfigEntry → Option V)

/-- What becomes of an entry that stands behind some definitions. It is in conflict with one of its
id that can be read. -/
def outcome (before : List Definition) (value : String × Toml.Value) : Outcome :=
  match ConfigEntry.ofValue? value.2 with
  | none => .failed
  | some entry =>
    if entry.isDisabled then .disabled
    else if before.any fun x => x.id == value.1 && (read x.id x.entry).isSome then .conflict
    else if (read value.1 entry).isSome then .loaded
    else .failed

/-- The top-level entries of some files, in order, with their files. -/
def topEntries (documents : List (String × ConfigDocument)) : List (String × String × Toml.Value) :=
  documents.flatMap fun file => file.2.toList.map fun value => (file.1, value)

/-- What becomes of entries that stand behind some definitions, one after the other. -/
def outcomesBehind : List Definition → List (String × String × Toml.Value) → List Outcome
  | _, [] => []
  | before, (file, value) :: rest =>
    outcome read before value :: outcomesBehind (before ++ (definitionOf? file value).toList) rest

def outcomes (documents : List (String × ConfigDocument)) : List Outcome :=
  outcomesBehind read [] (topEntries documents)

def tally (outcomes : List Outcome) : LoadReport where
  loaded := outcomes.count .loaded
  conflicts := outcomes.count .conflict
  failed := outcomes.count .failed

variable {read}

theorem any_eq_firstOf (id : String) (before : List Definition) :
    before.any (fun x => x.id == id && (read x.id x.entry).isSome) =
      (firstOf read id before).isSome := by
  induction before with
  | nil => rfl
  | cons x rest ih =>
    rw [List.any_cons, firstOf_cons, ih]
    by_cases same : x.id = id
    · cases read x.id x.entry <;> simp [same]
    · simp [same]

theorem firstOf_append (id : String) (before rest : List Definition) :
    firstOf read id (before ++ rest) = (firstOf read id before).or (firstOf read id rest) := by
  rw [firstOf, List.findSome?_append]
  rfl

theorem definitions_eq (documents : List (String × ConfigDocument)) :
    definitions documents = (topEntries documents).filterMap fun e => definitionOf? e.1 e.2 := by
  rw [definitions, topEntries, List.filterMap_flatMap]
  simp only [List.filterMap_map, Function.comp_def]

theorem length_outcomesBehind (entries : List (String × String × Toml.Value)) :
    ∀ before, (outcomesBehind read before entries).length = entries.length := by
  induction entries with
  | nil => exact fun _ => rfl
  | cons e rest ih => exact fun before => congrArg (· + 1) (ih _)

theorem outcome_eq_disabled (before : List Definition) (value : String × Toml.Value) :
    outcome read before value = .disabled ↔
      (ConfigEntry.ofValue? value.2).any ConfigEntry.isDisabled := by
  unfold outcome
  cases ConfigEntry.ofValue? value.2 with
  | none => simp
  | some entry =>
    simp only [Option.any_some]
    split
    · rename_i disabled
      simp [disabled]
    · rename_i enabled
      simp only [enabled]
      split
      · simp
      · split <;> simp

theorem count_disabled (entries : List (String × String × Toml.Value)) :
    ∀ before, (outcomesBehind read before entries).count .disabled =
      (entries.filter fun e => (ConfigEntry.ofValue? e.2.2).any ConfigEntry.isDisabled).length := by
  induction entries with
  | nil => exact fun _ => rfl
  | cons e rest ih =>
    intro before
    rw [outcomesBehind, List.count_cons, ih, List.filter_cons]
    by_cases disabled : (ConfigEntry.ofValue? e.2.2).any ConfigEntry.isDisabled
    · have same : outcome read before e.2 = .disabled := (outcome_eq_disabled ..).2 disabled
      simp [disabled, same]
    · have other : outcome read before e.2 ≠ .disabled := (outcome_eq_disabled ..).not.2 disabled
      simp [disabled, other]

theorem count_all (list : List Outcome) : list.count .loaded + list.count .conflict +
    list.count .failed + list.count .disabled = list.length := by
  induction list with
  | nil => rfl
  | cons head rest ih =>
    simp only [List.count_cons, List.length_cons]
    cases head <;> simp <;> omega

end Outcomes

/-! ## Kinds that can be seen -/

section Shown

variable {σ α : Type} (kind : EntityKind σ α) (read : String → ConfigEntry → Option V)
  (view : σ → α → Option (ConfigEntry × V))

/-- What is seen in some surroundings is seen in others. -/
def StaysShown (s s' : σ) : Prop := ∀ a x, view s a = some x → view s' a = some x

/-- Of an entity it can be seen which entry it has and what that comes to. It is made of an entry
that can be read, and nothing is made of another. -/
structure Shown : Prop where
  failed : ∀ {s id entry s'}, kind.create id entry s = (none, s') →
    read id entry = none ∧ StaysShown view s s'
  created : ∀ {s id entry a s'}, kind.create id entry s = (some a, s') →
    ∃ config, read id entry = some config ∧ view s' a = some (entry, config) ∧ StaysShown view s s'
  loaded : ∀ ids s, StaysShown view s (kind.loaded ids s)
  loadedEach : ∀ a s, StaysShown view s (kind.loadedEach a s).2 ∧
    ∀ x, view s a = some x → view (kind.loadedEach a s).2 (kind.loadedEach a s).1 = some x

/-- A registry has one entity for each id that is defined, that of the first definition that can be
read. -/
structure Agrees (before : List Definition) (registry : Registry α) (s : σ) : Prop where
  known : ∀ id, registry.contains id = (firstOf read id before).isSome
  seen : ∀ id owned, registry.get? id = some owned → ∃ x config,
    firstOf read id before = some (x, config) ∧ owned.file = x.file ∧
      view s owned.entity = some (x.entry, config)

variable {kind read view} {before : List Definition} {registry : Registry α} {s s' : σ}

theorem StaysShown.refl (s : σ) : StaysShown view s s := fun _ _ eq => eq

theorem Agrees.stays (agrees : Agrees read view before registry s) (stays : StaysShown view s s') :
    Agrees read view before registry s' where
  known := agrees.known
  seen id owned found := by
    obtain ⟨x, config, first, file, seen⟩ := agrees.seen id owned found
    exact ⟨x, config, first, file, stays _ _ seen⟩

/-- An id stands for what the first definition says that can be read. -/
theorem Agrees.defines (agrees : Agrees read view before registry s) {id : String} {x : Definition}
    {config : V} (first : firstOf read id before = some (x, config)) :
    (registry.get? id).bind (fun owned => (view s owned.entity).map fun y => (owned.file, y)) =
      some (x.file, x.entry, config) := by
  have known := agrees.known id
  rw [first] at known
  obtain ⟨owned, found⟩ := Option.isSome_iff_exists.1 known
  obtain ⟨y, config', first', file, seen⟩ := agrees.seen id owned found
  cases first.symm.trans first'
  simp [found, seen, file]

/-- A definition that does not count: it cannot be read, or its id is known. -/
theorem Agrees.skip (agrees : Agrees read view before registry s) {x : Definition}
    (vain : registry.contains x.id ∨ read x.id x.entry = none) :
    Agrees read view (before ++ [x]) registry s := by
  have same (id : String) : firstOf read id (before ++ [x]) = firstOf read id before := by
    rw [firstOf_append]
    rcases vain with known | unread
    · by_cases isId : x.id = id
      · rw [isId, agrees.known] at known
        obtain ⟨y, first⟩ := Option.isSome_iff_exists.1 known
        rw [first, Option.some_or]
      · simp [firstOf, isId]
    · simp [firstOf, unread]
  exact ⟨fun id => by rw [same, agrees.known], fun id owned found => by
    rw [same]
    exact agrees.seen id owned found⟩

theorem Agrees.insert (agrees : Agrees read view before registry s) {x : Definition} {a : α}
    {config : V} (new : registry.contains x.id = false) (read' : read x.id x.entry = some config)
    (stays : StaysShown view s s') (seen : view s' a = some (x.entry, config)) :
    Agrees read view (before ++ [x]) (registry.insert x.id ⟨x.file, a⟩) s' := by
  have unknown : firstOf read x.id before = none := by
    rwa [agrees.known, Option.isSome_eq_false_iff, Option.isNone_iff_eq_none] at new
  have own : firstOf read x.id (before ++ [x]) = some (x, config) := by
    rw [firstOf_append, unknown, Option.none_or]
    simp [firstOf, read']
  have others {id : String} (apart : x.id ≠ id) :
      firstOf read id (before ++ [x]) = firstOf read id before := by
    rw [firstOf_append]
    simp [firstOf, apart]
  refine ⟨fun id => ?_, fun id owned found => ?_⟩
  · rw [Table.contains_insert]
    by_cases same : x.id = id
    · subst same
      simp [own]
    · simp [same, others same, agrees.known]
  · rw [Table.get?_insert] at found
    split at found
    · rename_i same
      subst same
      cases found
      exact ⟨x, config, own, rfl, seen⟩
    · rename_i apart
      rw [others apart]
      exact (agrees.stays stays).seen id owned found

/-! ### One entry after the other -/

/-- What a load has come to behind some definitions, with these outcomes so far. -/
structure Tallied (read : String → ConfigEntry → Option V)
    (view : σ → α → Option (ConfigEntry × V)) (before : List Definition) (done : List Outcome)
    (l : Loading σ α) : Prop where
  agrees : Agrees read view before l.registry l.surroundings
  report : l.report = tally done
  size : l.registry.size = l.report.loaded

theorem size_insert {t : Table α} {name : String} (new : t.contains name = false) (value : α) :
    (t.insert name value).size = t.size + 1 := by
  have perm := Table.values_insert_perm t name value
  rw [Table.erase_eq_self new] at perm
  simpa [Table.values, Table.size] using perm.length_eq

variable (shown : Shown kind read view)

include shown

/-- What becomes of one entry. -/
theorem Shown.loadDefinition (file : String) (value : String × Toml.Value) {done : List Outcome}
    {l : Loading σ α} (tallied : Tallied read view before done l) :
    Tallied read view (before ++ (definitionOf? file value).toList)
      (done ++ [outcome read before value]) (Registry.loadDefinition kind file l value) := by
  obtain ⟨id, value⟩ := value
  obtain ⟨agrees, report, size⟩ := tallied
  simp only [Registry.loadDefinition, definitionOf?, outcome, any_eq_firstOf]
  rw [← agrees.known id]
  cases ConfigEntry.ofValue? value with
  | none =>
    refine ⟨?_, ?_, size⟩
    · simpa using agrees
    · simp [report, tally]
  | some entry =>
    simp only
    cases entry.isDisabled with
    | true =>
      refine ⟨?_, ?_, size⟩
      · simpa using agrees
      · simp [report, tally]
    | false =>
      simp only [Bool.false_eq_true, if_false, Option.toList_some]
      cases known : l.registry.contains id with
      | true =>
        refine ⟨agrees.skip (.inl known), ?_, size⟩
        simp [report, tally]
      | false =>
        simp only [Bool.false_eq_true, if_false]
        cases made : kind.create id entry l.surroundings with
        | mk entity after =>
          cases entity with
          | none =>
            obtain ⟨unread, stays⟩ := shown.failed made
            refine ⟨(agrees.stays stays).skip (.inr unread), ?_, size⟩
            simp [report, tally, unread]
          | some entity =>
            obtain ⟨config, read', seen, stays⟩ := shown.created made
            refine ⟨agrees.insert (x := ⟨file, id, entry⟩) known read' stays seen, ?_, ?_⟩
            · simp [report, tally, read']
            · simp [size_insert known, size]

theorem Shown.loadEntries (entries : List (String × String × Toml.Value)) :
    ∀ {before : List Definition} {done : List Outcome} {l : Loading σ α},
      Tallied read view before done l →
      Tallied read view (before ++ entries.filterMap fun e => definitionOf? e.1 e.2)
        (done ++ outcomesBehind read before entries)
        (entries.foldl (fun l e => Registry.loadDefinition kind e.1 l e.2) l) := by
  induction entries with
  | nil =>
    intro before done l tallied
    simpa [outcomesBehind] using tallied
  | cons e rest ih =>
    intro before done l tallied
    have later := ih (shown.loadDefinition e.1 e.2 tallied)
    have listed : (e :: rest).filterMap (fun e => definitionOf? e.1 e.2) =
        (definitionOf? e.1 e.2).toList ++ rest.filterMap fun e => definitionOf? e.1 e.2 := by
      rw [List.filterMap_cons]
      cases definitionOf? e.1 e.2 <;> rfl
    rw [listed, outcomesBehind, List.append_cons done, ← List.append_assoc]
    exact later

theorem Shown.mapEntities (registry : Registry α) {s : σ}
    (agrees : Agrees read view before registry s) :
    let r := Registry.mapEntities kind.loadedEach registry s
    Agrees read view before r.1 r.2 ∧ r.1.size = registry.size := by
  have each : ∀ (entries : List (String × Owned α)) (s : σ),
      let r := Table.mapFoldEntries (fun _ (owned : Owned α) s =>
        ((⟨owned.file, (kind.loadedEach owned.entity s).1⟩ : Owned α),
          (kind.loadedEach owned.entity s).2)) entries s
      StaysShown view s r.2 ∧
        ∀ id, ((Table.lookup id r.1).isSome = (Table.lookup id entries).isSome) ∧
        ∀ owned, Table.lookup id r.1 = some owned → ∃ old, Table.lookup id entries = some old ∧
          owned.file = old.file ∧
            ∀ x, view s old.entity = some x → view r.2 owned.entity = some x := by
    intro entries
    induction entries with
    | nil => exact fun s => ⟨.refl s, fun id => ⟨rfl, fun owned found => by cases found⟩⟩
    | cons e rest ih =>
      intro s
      obtain ⟨name, old⟩ := e
      obtain ⟨first, own⟩ := shown.loadedEach old.entity s
      obtain ⟨later, others⟩ := ih (kind.loadedEach old.entity s).2
      refine ⟨fun a x seen => later a x (first a x seen), fun id => ?_⟩
      simp only [Table.mapFoldEntries, Table.lookup]
      split
      · refine ⟨rfl, fun owned found => ?_⟩
        cases found
        exact ⟨old, rfl, rfl, fun x seen => later _ x (own x seen)⟩
      · obtain ⟨same, others⟩ := others id
        refine ⟨same, fun owned found => ?_⟩
        obtain ⟨older, found, file, seen⟩ := others owned found
        exact ⟨older, found, file, fun x before => seen x (first _ x before)⟩
  obtain ⟨-, each⟩ := each registry.entries s
  refine ⟨⟨fun id => ?_, fun id owned found => ?_⟩, ?_⟩
  · exact (each id).1.trans (agrees.known id)
  · obtain ⟨old, found, file, seen⟩ := (each id).2 owned found
    obtain ⟨x, config, first, from', is⟩ := agrees.seen id old found
    exact ⟨x, config, first, file.trans from', seen _ is⟩
  · have names := Table.map_fst_mapFoldEntries (fun _ (owned : Owned α) s =>
      ((⟨owned.file, (kind.loadedEach owned.entity s).1⟩ : Owned α),
        (kind.loadedEach owned.entity s).2)) registry.entries s
    have lengths := congrArg List.length names
    rwa [List.length_map, List.length_map] at lengths

/-- A load reports what became of each entry, and has the entities of the first definitions that can
be read, whatever there was before. -/
theorem Shown.load_accounts (registry : Registry α) (documents : List (String × ConfigDocument))
    (s : σ) :
    Tallied read view (definitions documents) (outcomes read documents)
      (registry.load kind documents s) := by
  have start : Tallied read view [] [] (⟨.empty, retireAll kind registry s, {}⟩ : Loading σ α) :=
    ⟨⟨fun _ => rfl, fun id owned found => by cases found⟩, rfl, rfl⟩
  have all := shown.loadEntries (topEntries documents) start
  have folded : (topEntries documents).foldl (fun l e => Registry.loadDefinition kind e.1 l e.2)
      (⟨.empty, retireAll kind registry s, {}⟩ : Loading σ α) =
      documents.foldl (loadFile kind) ⟨.empty, retireAll kind registry s, {}⟩ := by
    simp only [topEntries, List.foldl_flatMap, List.foldl_map]
    rfl
  rw [List.nil_append, List.nil_append, ← definitions_eq, folded] at all
  simp only [load]
  generalize documents.foldl (loadFile kind) _ = l at all ⊢
  obtain ⟨agrees, size⟩ := shown.mapEntities l.registry
    (all.agrees.stays (shown.loaded l.registry.keys l.surroundings))
  exact ⟨agrees, all.report, size.trans all.size⟩

end Shown

/-! ## The first file -/

section Files

variable {read : String → ConfigEntry → Option V}

theorem definitionOf?_eq (file name : String) (value : Toml.Value) :
    definitionOf? file (name, value) =
      ((ConfigEntry.ofValue? value).filter fun entry => !entry.isDisabled).map fun entry =>
        ⟨file, name, entry⟩ := by
  rw [definitionOf?]
  cases ConfigEntry.ofValue? value with
  | none => rfl
  | some entry => cases disabled : entry.isDisabled <;> simp [Option.filter, disabled]

theorem firstOf_entries (file id : String) {entries : List (String × Toml.Value)}
    (sorted : entries.Pairwise fun a b => a.1 < b.1) :
    firstOf read id (entries.filterMap (definitionOf? file)) =
      ((Table.lookup id entries).bind fun value =>
        (ConfigEntry.ofValue? value).filter fun entry => !entry.isDisabled).bind fun entry =>
          (read id entry).map fun config => (⟨file, id, entry⟩, config) := by
  induction entries with
  | nil => rfl
  | cons e rest ih =>
    obtain ⟨name, value⟩ := e
    obtain ⟨above, sorted⟩ := List.pairwise_cons.1 sorted
    have listed : ((name, value) :: rest).filterMap (definitionOf? file) =
        (definitionOf? file (name, value)).toList ++ rest.filterMap (definitionOf? file) := by
      rw [List.filterMap_cons]
      cases definitionOf? file (name, value) <;> rfl
    rw [listed, firstOf_append, ih sorted, definitionOf?_eq, Table.lookup]
    by_cases same : name = id
    · subst same
      have absent : Table.lookup name rest = none := by
        by_contra there
        obtain ⟨other, found⟩ := Option.ne_none_iff_exists'.1 there
        exact String.lt_irrefl name (above _ (Table.mem_of_lookup_eq_some found))
      rw [absent, if_pos rfl, Option.bind_some, Option.bind_none]
      cases (ConfigEntry.ofValue? value).filter fun entry => !entry.isDisabled with
      | none => rfl
      | some entry => cases read' : read name entry <;> simp [firstOf, read']
    · rw [if_neg same]
      cases (ConfigEntry.ofValue? value).filter fun entry => !entry.isDisabled with
      | none => rfl
      | some entry => simp [firstOf, same]

theorem firstOf_file (file id : String) (document : ConfigDocument) :
    firstOf read id (document.toList.filterMap (definitionOf? file)) =
      (definition? document id).bind fun entry =>
        (read id entry).map fun config => (⟨file, id, entry⟩, config) :=
  firstOf_entries file id document.sorted

/-- What a load takes is from the first file with a definition that can be read. -/
theorem firstOf_definitions {id : String} {documents : List (String × ConfigDocument)}
    {x : Definition} {config : V}
    (first : firstOf read id (definitions documents) = some (x, config)) :
    ∃ before document later, documents = before ++ (x.file, document) :: later ∧
      definition? document id = some x.entry ∧ read id x.entry = some config ∧
      ∀ other ∈ before, ∀ entry, definition? other.2 id = some entry → read id entry = none := by
  induction documents with
  | nil => cases first
  | cons f rest ih =>
    obtain ⟨file, document⟩ := f
    rw [definitions, List.flatMap_cons, firstOf_append, firstOf_file] at first
    rcases Option.or_eq_some_iff.1 first with here | ⟨nothing, later⟩
    · obtain ⟨entry, defined, here⟩ := Option.bind_eq_some_iff.1 here
      obtain ⟨config, read', eq⟩ := Option.map_eq_some_iff.1 here
      cases eq
      exact ⟨[], document, rest, rfl, defined, read', by simp⟩
    · obtain ⟨before, document', rest', rfl, defined, read', unread⟩ := ih later
      refine ⟨(file, document) :: before, document', rest', rfl, defined, read', ?_⟩
      refine List.forall_mem_cons.2 ⟨fun entry defined' => ?_, unread⟩
      rw [defined', Option.bind_some] at nothing
      exact Option.map_eq_none_iff.1 nothing

theorem firstOf_isSome_iff {id : String} {documents : List (String × ConfigDocument)} :
    (firstOf read id (definitions documents)).isSome ↔ ∃ file document entry,
      (file, document) ∈ documents ∧ definition? document id = some entry ∧
        (read id entry).isSome := by
  rw [firstOf, List.findSome?_isSome_iff]
  constructor
  · rintro ⟨x, mem, is⟩
    obtain ⟨document, listed, defined⟩ := mem_definitions.1 mem
    split at is
    · rename_i same
      subst same
      exact ⟨x.file, document, x.entry, listed, defined, by simpa using is⟩
    · cases is
  · rintro ⟨file, document, entry, listed, defined, readable⟩
    exact ⟨⟨file, id, entry⟩, mem_definitions.2 ⟨document, listed, defined⟩,
      by simpa using readable⟩

end Files

end Registry

end ScriptHost
