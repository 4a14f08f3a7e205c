/-!
# Tables

A finite map from names to values, kept as its entries in ascending order of the names. The order of
names is the order of their characters, which for text in UTF-8 is also the order of its bytes.

* `get?_insert`, `get?_erase` say what each operation does to look-up.
* `ext_get?`: a table is determined by its look-ups, since its entries are sorted.
-/
namespace ScriptHost

/-- Entries in strictly ascending order of their names. -/
structure Table (α : Type) where
  entries : List (String × α)
  sorted : entries.Pairwise fun a b => a.1 < b.1

namespace Table

variable {α β : Type}

def empty : Table α := ⟨[], .nil⟩

instance : Inhabited (Table α) := ⟨empty⟩
instance : EmptyCollection (Table α) := ⟨empty⟩

/-- The value of the first entry with this name. -/
def lookup (name : String) : List (String × α) → Option α
  | [] => none
  | (other, value) :: rest => if other = name then some value else lookup name rest

/-- Puts an entry in its place among sorted entries, over one with the same name. -/
def insertEntry (name : String) (value : α) : List (String × α) → List (String × α)
  | [] => [(name, value)]
  | (other, old) :: rest =>
    if name < other then (name, value) :: (other, old) :: rest
    else if name = other then (name, value) :: rest
    else (other, old) :: insertEntry name value rest

theorem mem_insertEntry {name : String} {value : α} {entry : String × α}
    {entries : List (String × α)} (h : entry ∈ insertEntry name value entries) :
    entry = (name, value) ∨ entry ∈ entries := by
  induction entries with
  | nil => simp_all [insertEntry]
  | cons head rest ih =>
    obtain ⟨other, old⟩ := head
    simp only [insertEntry] at h
    grind

theorem sorted_insertEntry {name : String} {value : α} {entries : List (String × α)}
    (h : entries.Pairwise fun a b => a.1 < b.1) :
    (insertEntry name value entries).Pairwise fun a b => a.1 < b.1 := by
  induction entries with
  | nil => simp [insertEntry]
  | cons head rest ih =>
    obtain ⟨other, old⟩ := head
    obtain ⟨above, tail⟩ := List.pairwise_cons.1 h
    rw [insertEntry]
    split
    · next lt =>
      refine List.pairwise_cons.2 ⟨fun e he => ?_, h⟩
      rcases List.mem_cons.1 he with rfl | he
      · exact lt
      · exact String.lt_trans lt (above e he)
    · next notLt =>
      split
      · next eq => subst eq; exact List.pairwise_cons.2 ⟨above, tail⟩
      · next ne =>
        refine List.pairwise_cons.2 ⟨fun e he => ?_, ih tail⟩
        rcases mem_insertEntry he with rfl | he
        · rcases String.le_total name other with le | le
          · exact absurd (Std.le_antisymm le (String.not_lt.1 notLt)) ne
          · exact Std.lt_of_le_of_ne le (Ne.symm ne)
        · exact above e he

def get? (t : Table α) (name : String) : Option α := lookup name t.entries

def contains (t : Table α) (name : String) : Bool := (t.get? name).isSome

def insert (t : Table α) (name : String) (value : α) : Table α :=
  ⟨insertEntry name value t.entries, sorted_insertEntry t.sorted⟩

def erase (t : Table α) (name : String) : Table α :=
  ⟨t.entries.filter (·.1 != name), t.sorted.filter _⟩

/-- The table without the entries that fail a test. -/
def filter (t : Table α) (keep : String → α → Bool) : Table α :=
  ⟨t.entries.filter fun e => keep e.1 e.2, t.sorted.filter _⟩

/-- The table with every value replaced, under the same names. -/
def map (f : String → α → β) (t : Table α) : Table β :=
  ⟨t.entries.map fun e => (e.1, f e.1 e.2), List.pairwise_map.2 t.sorted⟩

/-- Replaces the values of entries one after the other, passing on a state. -/
def mapFoldEntries {σ : Type} (f : String → α → σ → β × σ) : List (String × α) → σ →
    List (String × β) × σ
  | [], state => ([], state)
  | (name, value) :: rest, state =>
    let (value, state) := f name value state
    let (rest, state) := mapFoldEntries f rest state
    ((name, value) :: rest, state)

theorem map_fst_mapFoldEntries {σ : Type} (f : String → α → σ → β × σ) (entries : List (String × α))
    (state : σ) : (mapFoldEntries f entries state).1.map (·.1) = entries.map (·.1) := by
  induction entries generalizing state with
  | nil => rfl
  | cons head rest ih => simp [mapFoldEntries, ih]

/-- The table with every value replaced, in the order of the names, passing on a state. -/
def mapFold {σ : Type} (f : String → α → σ → β × σ) (t : Table α) (state : σ) : Table β × σ :=
  (⟨(mapFoldEntries f t.entries state).1, by
      have names : ((mapFoldEntries f t.entries state).1.map (·.1)).Pairwise (· < ·) := by
        rw [map_fst_mapFoldEntries]
        exact List.pairwise_map.2 t.sorted
      exact List.pairwise_map.1 names⟩,
    (mapFoldEntries f t.entries state).2)

/-- The table of some entries; of two with one name the later counts. -/
def ofList (entries : List (String × α)) : Table α :=
  entries.foldl (fun t e => t.insert e.1 e.2) empty

def toList (t : Table α) : List (String × α) := t.entries
def keys (t : Table α) : List String := t.entries.map (·.1)
def values (t : Table α) : List α := t.entries.map (·.2)
def size (t : Table α) : Nat := t.entries.length
def isEmpty (t : Table α) : Bool := t.entries.isEmpty

theorem lookup_insertEntry (name other : String) (value : α) (entries : List (String × α)) :
    lookup other (insertEntry name value entries) =
      if name = other then some value else lookup other entries := by
  induction entries with
  | nil => simp [insertEntry, lookup]
  | cons head rest ih =>
    obtain ⟨first, old⟩ := head
    simp only [insertEntry]
    split
    · simp [lookup]
    · split
      · next eq => subst eq; simp only [lookup]; split <;> rfl
      · next ne => simp only [lookup, ih]; grind

@[simp] theorem get?_empty (name : String) : (empty : Table α).get? name = none := rfl

@[simp] theorem get?_insert (t : Table α) (name other : String) (value : α) :
    (t.insert name value).get? other = if name = other then some value else t.get? other :=
  lookup_insertEntry ..

@[simp] theorem contains_insert (t : Table α) (name other : String) (value : α) :
    (t.insert name value).contains other = (name == other || t.contains other) := by
  by_cases h : name = other <;> simp [contains, h]

theorem lookup_filter_ne (name other : String) (entries : List (String × α)) :
    lookup other (entries.filter (·.1 != name)) =
      if name = other then none else lookup other entries := by
  induction entries with
  | nil => simp [lookup]
  | cons head rest ih =>
    obtain ⟨first, value⟩ := head
    simp only [List.filter_cons, lookup]
    grind [lookup]

@[simp] theorem get?_erase (t : Table α) (name other : String) :
    (t.erase name).get? other = if name = other then none else t.get? other :=
  lookup_filter_ne ..

theorem lookup_map (f : String → α → β) (name : String) (entries : List (String × α)) :
    lookup name (entries.map fun e => (e.1, f e.1 e.2)) = (lookup name entries).map (f name) := by
  induction entries with
  | nil => rfl
  | cons head rest ih =>
    simp only [List.map_cons, lookup, ih]
    split
    · next eq => simp [eq]
    · rfl

@[simp] theorem get?_map (f : String → α → β) (t : Table α) (name : String) :
    (t.map f).get? name = (t.get? name).map (f name) :=
  lookup_map ..

theorem lookup_eq_some_of_mem {entries : List (String × α)}
    (sorted : entries.Pairwise fun a b => a.1 < b.1) {entry : String × α} (h : entry ∈ entries) :
    lookup entry.1 entries = some entry.2 := by
  induction entries with
  | nil => simp at h
  | cons head rest ih =>
    obtain ⟨above, tail⟩ := List.pairwise_cons.1 sorted
    rcases List.mem_cons.1 h with rfl | h
    · simp [lookup]
    · have : head.1 ≠ entry.1 := fun eq => String.lt_irrefl _ (eq ▸ above entry h)
      simp [lookup, this, ih tail h]

theorem mem_of_lookup_eq_some {entries : List (String × α)} {name : String} {value : α}
    (h : lookup name entries = some value) : (name, value) ∈ entries := by
  induction entries with
  | nil => simp [lookup] at h
  | cons head rest ih =>
    obtain ⟨first, old⟩ := head
    simp only [lookup] at h
    split at h
    · next eq => subst eq; simp_all
    · exact List.mem_cons_of_mem _ (ih h)

theorem mem_entries_iff (t : Table α) (name : String) (value : α) :
    (name, value) ∈ t.entries ↔ t.get? name = some value :=
  ⟨fun h => lookup_eq_some_of_mem t.sorted h, mem_of_lookup_eq_some⟩

theorem ext_get? {s t : Table α} (h : ∀ name, s.get? name = t.get? name) : s = t := by
  obtain ⟨left, hl⟩ := s
  obtain ⟨right, hr⟩ := t
  have nodup {entries : List (String × α)} (sorted : entries.Pairwise fun a b => a.1 < b.1) :
      entries.Nodup :=
    sorted.imp fun lt eq => by subst eq; exact String.lt_irrefl _ lt
  have perm : left.Perm right := by
    refine (List.perm_ext_iff_of_nodup (nodup hl) (nodup hr)).2 fun entry => ?_
    exact (mem_entries_iff ⟨left, hl⟩ entry.1 entry.2).trans
      (by rw [h entry.1]; exact (mem_entries_iff ⟨right, hr⟩ entry.1 entry.2).symm)
  have : left = right :=
    perm.eq_of_pairwise (fun a b _ _ hab hba =>
      absurd (String.lt_trans hab hba) (String.lt_irrefl _)) hl hr
  subst this
  rfl

end Table
end ScriptHost
