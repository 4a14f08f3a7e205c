import ScriptHost.Project.Sync
import ScriptHost.Proofs.Config.Changes
/-!
# Entries that did not change

An entry equals another by the equality of values, for which a NaN equals nothing, not even itself,
and both zeros are one number. Equal entries have no changed keys and give the same configuration;
and an entry without a NaN equals itself.

**Results.**
* `changedKeys_of_same`: equal entries have no changed keys.
* `ofEntry_of_unchanged`: without a changed key, the configuration is the same.
* `same_definition`: what a document without a NaN defines equals itself.
-/
namespace ScriptHost

/-! ## Values without a NaN -/

namespace Toml.Value

mutual

/-- Whether no float in a value is a NaN. -/
def comparable : Value → Bool
  | float x => !x.isNaN
  | array items => comparableItems items
  | table entries => comparableEntries entries
  | _ => true

def comparableItems : List Value → Bool
  | [] => true
  | item :: rest => item.comparable && comparableItems rest

def comparableEntries : List (String × Value) → Bool
  | [] => true
  | (_, value) :: rest => value.comparable && comparableEntries rest

end

mutual

theorem same_self : ∀ {value : Value}, value.comparable → value.same value
  | string s, _ => by simp [same]
  | integer n, _ => by simp [same]
  | float x, h => by
    have finite : x.isNaN = false := by simpa [comparable] using h
    simp [same, Binary64.same, finite]
  | boolean b, _ => by simp [same]
  | datetime d, _ => by simp [same]
  | array items, h => by
    rw [same]
    exact sameItems_self (by rwa [comparable] at h)
  | table entries, h => by
    rw [same]
    exact sameEntries_self (by rwa [comparable] at h)

theorem sameItems_self : ∀ {items : List Value}, comparableItems items → sameItems items items
  | [], _ => rfl
  | item :: rest, h => by
    obtain ⟨first, others⟩ := (Bool.and_eq_true ..).mp (by rwa [comparableItems] at h)
    rw [sameItems, same_self first, sameItems_self others]
    rfl

theorem sameEntries_self : ∀ {entries : List (String × Value)}, comparableEntries entries →
    sameEntries entries entries
  | [], _ => rfl
  | (name, value) :: rest, h => by
    obtain ⟨first, others⟩ := (Bool.and_eq_true ..).mp (by rwa [comparableEntries] at h)
    rw [sameEntries, same_self first, sameEntries_self others, beq_self_eq_true]
    rfl

end

theorem comparableEntries_iff {entries : List (String × Value)} :
    comparableEntries entries ↔ ∀ e ∈ entries, e.2.comparable := by
  induction entries with
  | nil => simp [comparableEntries]
  | cons e rest ih => simp [comparableEntries, ih]

end Toml.Value

theorem Table.mem_of_mem_ofList {α : Type} {e : String × α} {list : List (String × α)}
    (mem : e ∈ (Table.ofList list).entries) : e ∈ list := by
  have within : ∀ (list : List (String × α)) (t : Table α),
      e ∈ (list.foldl (fun t e => t.insert e.1 e.2) t).entries → e ∈ t.entries ∨ e ∈ list := by
    intro list
    induction list with
    | nil => exact fun t mem => .inl mem
    | cons head rest ih =>
      intro t mem
      rcases ih _ mem with mem | later
      · rcases mem_insertEntry mem with rfl | before
        · exact .inr (.head _)
        · exact .inl before
      · exact .inr (.tail _ later)
  exact (within list .empty mem).resolve_left (List.not_mem_nil)

/-! ## Entries -/

namespace ConfigEntry

variable {entry other : ConfigEntry}

/-- Equal entries have no changed keys. -/
theorem changedKeys_of_same (h : entry.same other) : entry.changedKeys other = [] := by
  refine List.filter_eq_nil_iff.2 fun key _ => ?_
  have agree : entry.agreesOn other key := by
    unfold agreesOn Table.get?
    rcases Toml.Value.lookup_same key (Toml.Value.forall₂_of_sameEntries h) with
      ⟨absent, absent'⟩ | ⟨value, new, found, found', same⟩
    · rw [absent, absent']
    · rw [found, found']
      exact same
  simp [agree]

end ConfigEntry

section Unchanged

variable {id id' : String} {entry other : ConfigEntry}

theorem ConfigEntry.agreesOn_of_unchanged (unchanged : entry.changedKeys other = [])
    (key : String) :
    entry.agreesOn other key :=
  ConfigEntry.agreesOn_of_not_changed (by simp [unchanged])

theorem HandlerConfig.ofEntry_of_unchanged {config config' : HandlerConfig}
    (unchanged : entry.changedKeys other = []) (h : ofEntry id entry = .ok config)
    (h' : ofEntry id' other = .ok config') : config' = config := by
  have agree := ConfigEntry.agreesOn_of_unchanged unchanged
  have script := script_of_agrees h h' fun key _ => agree key
  rw [← bind_of_agrees h h' (agree _), ← priority_of_agrees h h' (agree _)] at script
  exact script

theorem ScheduleConfig.ofEntry_of_unchanged {config config' : ScheduleConfig}
    (unchanged : entry.changedKeys other = []) (h : ofEntry id entry = .ok config)
    (h' : ofEntry id' other = .ok config') : config' = config := by
  have agree := ConfigEntry.agreesOn_of_unchanged unchanged
  have times := times_of_agrees h h' fun key _ => agree key
  obtain ⟨namespaces, execute⟩ := script_of_agrees h h' fun key _ => agree key
  rw [← namespaces, ← execute] at times
  exact times

end Unchanged

/-! ## Definitions -/

/-- What a document without a NaN defines equals itself. -/
theorem Registry.same_definition {document : ConfigDocument} {id : String} {entry : ConfigEntry}
    (comparable : Toml.Value.comparableEntries document.entries)
    (defined : definition? document id = some entry) : entry.same entry := by
  obtain ⟨value, found, is⟩ := Option.bind_eq_some_iff.1 defined
  obtain ⟨is, -⟩ := Option.filter_eq_some_iff.1 is
  have within := Toml.Value.comparableEntries_iff.1 comparable _ (Table.mem_of_lookup_eq_some found)
  cases value with
  | table entries =>
    cases is
    rw [Toml.Value.comparable, Toml.Value.comparableEntries_iff] at within
    refine Toml.Value.sameEntries_self (Toml.Value.comparableEntries_iff.2 fun e mem => ?_)
    exact within e (Table.mem_of_mem_ofList mem)
  | _ => cases is

end ScriptHost
