/-!
# Stores

A store keeps values under keys that it deals out itself. A key names one value for good: it is
never dealt out again, also when its value is gone. So two things with equal properties stay two
things, and a key that outlives its value finds nothing.

`get?_add`, `get?_modify` and `get?_erase` say what each operation does to look-up.
-/
namespace ScriptHost

/-- What a key may name. -/
inductive KeyKind where
  | handler
  | dispatcher

/-- The identity of a value in a store. -/
structure Key (kind : KeyKind) where
  number : Nat
  deriving DecidableEq, Repr

structure Store (kind : KeyKind) (α : Type) where
  /-- The values in the order in which they came, by the numbers of their keys. -/
  entries : List (Nat × α)
  /-- The number of the next key. -/
  next : Nat
  ascending : entries.Pairwise fun a b => a.1 < b.1
  below : ∀ e ∈ entries, e.1 < next

namespace Store

variable {kind : KeyKind} {α : Type}

def empty : Store kind α := ⟨[], 0, .nil, by simp⟩

instance : Inhabited (Store kind α) := ⟨empty⟩

/-- The value of the first entry with this number. -/
def find? (number : Nat) : List (Nat × α) → Option α
  | [] => none
  | (other, value) :: rest => if other = number then some value else find? number rest

def get? (s : Store kind α) (key : Key kind) : Option α := find? key.number s.entries

def contains (s : Store kind α) (key : Key kind) : Bool := (s.get? key).isSome

/-- The key that the next value gets. -/
def nextKey (s : Store kind α) : Key kind := ⟨s.next⟩

/-- The store with one more value, under `nextKey`. -/
def add (s : Store kind α) (value : α) : Store kind α where
  entries := s.entries ++ [(s.next, value)]
  next := s.next + 1
  ascending := List.pairwise_append.2 ⟨s.ascending, List.pairwise_singleton .., fun a ha b hb => by
    simp only [List.mem_singleton] at hb
    exact hb ▸ s.below a ha⟩
  below e he := by
    rcases List.mem_append.1 he with he | he
    · exact Nat.lt_succ_of_lt (s.below e he)
    · simp only [List.mem_singleton] at he
      simp [he]

/-- The store with a value changed, if the key has one. -/
def modify (s : Store kind α) (key : Key kind) (f : α → α) : Store kind α where
  entries := s.entries.map fun e => (e.1, if e.1 = key.number then f e.2 else e.2)
  next := s.next
  ascending := List.pairwise_map.2 s.ascending
  below e he := by
    obtain ⟨old, hold, rfl⟩ := List.mem_map.1 he
    exact s.below old hold

/-- The store without the value of a key. -/
def erase (s : Store kind α) (key : Key kind) : Store kind α where
  entries := s.entries.filter (·.1 != key.number)
  next := s.next
  ascending := s.ascending.filter _
  below e he := s.below e (List.mem_filter.1 he).1

@[simp] theorem find?_nil (number : Nat) : find? number ([] : List (Nat × α)) = none := rfl

theorem find?_cons (number : Nat) (head : Nat × α) (rest : List (Nat × α)) :
    find? number (head :: rest) = if head.1 = number then some head.2 else find? number rest :=
  rfl

@[simp] theorem get?_empty (key : Key kind) : (empty : Store kind α).get? key = none := rfl

theorem find?_append (number : Nat) (first second : List (Nat × α)) :
    find? number (first ++ second) = (find? number first).or (find? number second) := by
  induction first with
  | nil => rfl
  | cons head rest ih =>
    simp only [List.cons_append, find?_cons, ih]
    split <;> simp

theorem find?_eq_none {number : Nat} {entries : List (Nat × α)} (h : ∀ e ∈ entries, e.1 < number) :
    find? number entries = none := by
  induction entries with
  | nil => rfl
  | cons head rest ih =>
    have : head.1 ≠ number := Nat.ne_of_lt (h head (by simp))
    simp [find?_cons, this, ih fun e he => h e (by simp [he])]

theorem get?_nextKey (s : Store kind α) : s.get? s.nextKey = none := find?_eq_none s.below

@[simp] theorem get?_add (s : Store kind α) (value : α) (key : Key kind) :
    (s.add value).get? key = if key = s.nextKey then some value else s.get? key := by
  simp only [get?, add, find?_append, find?_cons, find?_nil]
  by_cases h : key = s.nextKey
  · subst h
    have := find?_eq_none s.below
    simp_all [nextKey]
  · have : s.next ≠ key.number := fun eq => h (by simp [nextKey, eq])
    simp [h, this]

theorem find?_map (key number : Nat) (f : α → α) (entries : List (Nat × α)) :
    find? number (entries.map fun e => (e.1, if e.1 = key then f e.2 else e.2)) =
      if number = key then (find? number entries).map f else find? number entries := by
  induction entries with
  | nil => simp
  | cons head rest ih =>
    simp only [List.map_cons, find?_cons, ih]
    grind

@[simp] theorem get?_modify (s : Store kind α) (key other : Key kind) (f : α → α) :
    (s.modify key f).get? other = if other = key then (s.get? other).map f else s.get? other := by
  have : other.number = key.number ↔ other = key := by
    cases key; cases other; simp
  simp only [get?, modify, find?_map, this]

theorem find?_filter_ne (key number : Nat) (entries : List (Nat × α)) :
    find? number (entries.filter (·.1 != key)) =
      if number = key then none else find? number entries := by
  induction entries with
  | nil => simp
  | cons head rest ih =>
    simp only [List.filter_cons, find?_cons]
    grind [find?_cons]

@[simp] theorem get?_erase (s : Store kind α) (key other : Key kind) :
    (s.erase key).get? other = if other = key then none else s.get? other := by
  have : other.number = key.number ↔ other = key := by
    cases key; cases other; simp
  simp only [get?, erase, find?_filter_ne, this]

end Store
end ScriptHost
