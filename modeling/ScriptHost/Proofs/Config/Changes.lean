import Mathlib.Data.List.Forall2
import ScriptHost.Config.Handler
import ScriptHost.Config.Schedule
import ScriptHost.Proofs.Script.Scanning
/-!
# What an unchanged key leaves unchanged

Handlers and schedules decide by the keys whose values changed what a new entry calls for. That
is right only if a key whose value is the same, as values are compared, decodes to the same
field.

**What is said.** `Toml.Value.Same`: the values that are the same, by what they are.
`Decode.Alike`: same values are read alike. `Decode.Sets`: a key sets a field to what is read off
its value, and no other key does.

**Results.**
* `Decode.Sets.agree`: entries that agree on a key agree on the field that it sets.
* `HandlerConfig.setKey_sets`, `ScheduleConfig.setKey_sets`: which key sets which field.
* `HandlerConfig.script_of_agrees`, `ScheduleConfig.script_of_agrees`,
  `ScheduleConfig.times_of_agrees`: entries that agree on the keys of the script, or of the
  times, give the same of it.
* `ConfigEntry.agreesOn_of_not_changed`: two entries agree on all keys that are not reported as
  changed.
* `HandlerChanges.rebind_ofKeys` and its like: which keys call for what.
-/
namespace ScriptHost

/-! ## Values that are the same -/

namespace Toml.Value

/-- The values that are the same, by what they are. -/
inductive Same : Value → Value → Prop where
  | string (s : String) : Same (.string s) (.string s)
  | integer (n : Int64) : Same (.integer n) (.integer n)
  | float {x y : Binary64} : x.same y → Same (.float x) (.float y)
  | boolean (b : Bool) : Same (.boolean b) (.boolean b)
  | datetime (d : Datetime) : Same (.datetime d) (.datetime d)
  | array {items others : List Value} :
    List.Forall₂ (fun item other => item.same other) items others →
      Same (.array items) (.array others)
  | table {entries others : List (String × Value)} :
    List.Forall₂ (fun e other => e.1 = other.1 ∧ e.2.same other.2) entries others →
      Same (.table entries) (.table others)

theorem forall₂_of_sameItems : ∀ {items others : List Value}, sameItems items others →
    List.Forall₂ (fun item other => item.same other) items others
  | [], [], _ => .nil
  | [], _ :: _, h => by simp [sameItems] at h
  | _ :: _, [], h => by simp [sameItems] at h
  | item :: items, other :: others, h => by
    obtain ⟨head, tail⟩ := (Bool.and_eq_true ..).mp (by rwa [sameItems] at h)
    exact .cons head (forall₂_of_sameItems tail)

theorem forall₂_of_sameEntries : ∀ {entries others : List (String × Value)},
    sameEntries entries others →
    List.Forall₂ (fun e other => e.1 = other.1 ∧ e.2.same other.2) entries others
  | [], [], _ => .nil
  | [], _ :: _, h => by simp [sameEntries] at h
  | _ :: _, [], h => by simp [sameEntries] at h
  | (key, value) :: entries, (otherKey, other) :: others, h => by
    simp only [sameEntries, Bool.and_eq_true, beq_iff_eq] at h
    exact .cons h.1 (forall₂_of_sameEntries h.2)

theorem Same.of_same {value other : Value} (h : value.same other) : Same value other := by
  cases value <;> cases other
  case float.float => exact .float (by rwa [same] at h)
  case array.array => exact .array (forall₂_of_sameItems (by rwa [same] at h))
  case table.table => exact .table (forall₂_of_sameEntries (by rwa [same] at h))
  all_goals simp [same] at h
  all_goals subst h; constructor

/-- In tables that are the same a name stands for nothing in both, or for values that are the
same. -/
theorem lookup_same (name : String) {entries others : List (String × Value)}
    (h : List.Forall₂ (fun e other => e.1 = other.1 ∧ e.2.same other.2) entries others) :
    (Table.lookup name entries = none ∧ Table.lookup name others = none) ∨
      ∃ value other, Table.lookup name entries = some value ∧
        Table.lookup name others = some other ∧ value.same other := by
  induction h with
  | nil => exact .inl ⟨rfl, rfl⟩
  | @cons e other _ _ head _ ih =>
    rw [Table.lookup, Table.lookup, ← head.1]
    by_cases found : e.1 = name
    · exact .inr ⟨e.2, other.2, by simp [found], by simp [found], head.2⟩
    · simpa [found] using ih

end Toml.Value

namespace Decode

open Toml.Value (Same)

variable {α β : Type}

/-- Same values are read alike. -/
def Alike (read : Toml.Value → Except DecodeProblem β) : Prop :=
  ∀ ⦃value other : Toml.Value⦄, value.same other → (read value).toOption = (read other).toOption

theorem text?_of_same ⦃value other : Toml.Value⦄ (h : value.same other) :
    text? value = text? other := by
  cases Same.of_same h <;> rfl

theorem mapM_of_same {f : Toml.Value → Option β}
    (alike : ∀ ⦃value other : Toml.Value⦄, value.same other → f value = f other)
    {items others : List Toml.Value}
    (h : List.Forall₂ (fun item other => item.same other) items others) :
    items.mapM f = others.mapM f := by
  induction h with
  | nil => rfl
  | cons head _ ih => rw [List.mapM_cons, List.mapM_cons, alike head, ih]

theorem texts?_of_same ⦃value other : Toml.Value⦄ (h : value.same other) :
    texts? value = texts? other := by
  cases Same.of_same h with
  | array same => exact mapM_of_same text?_of_same same
  | _ => rfl

theorem lookup_of_same {f : Toml.Value → Option β}
    (alike : ∀ ⦃value other : Toml.Value⦄, value.same other → f value = f other) (name : String)
    {entries others : List (String × Toml.Value)}
    (h : List.Forall₂ (fun e other => e.1 = other.1 ∧ e.2.same other.2) entries others) :
    (Table.lookup name entries).map f = (Table.lookup name others).map f := by
  rcases Toml.Value.lookup_same name h with ⟨absent, absent'⟩ | ⟨_, _, found, found', same⟩
  · rw [absent, absent']
  · rw [found, found', Option.map_some, Option.map_some, alike same]

theorem string_alike : Alike string := by
  intro value other h
  unfold string
  rw [text?_of_same h]
  cases text? other <;> rfl

theorem strings_alike : Alike strings := by
  intro value other h
  unfold strings
  rw [texts?_of_same h]

theorem script_alike : Alike script := by
  intro value other h
  unfold script
  rw [texts?_of_same h]

theorem integer_alike : Alike integer := by
  intro value other h
  cases Same.of_same h <;> rfl

theorem boolean_alike : Alike boolean := by
  intro value other h
  cases Same.of_same h <;> rfl

theorem Alike.map {read : Toml.Value → Except DecodeProblem α} (alike : Alike read) (f : α → β) :
    Alike fun value => (read value).map f := by
  intro value other h
  have same := alike h
  cases first : read value <;> cases second : read other <;>
    simp_all [Except.toOption, Except.map]

end Decode

namespace HandlerConfig

open Toml.Value (Same)

theorem clause?_of_same ⦃value other : Toml.Value⦄ (h : value.same other) :
    clause? value = clause? other := by
  cases Same.of_same h with
  | @table entries others same =>
    have matcher := Decode.lookup_of_same (f := Decode.text?) Decode.text?_of_same "catch" same
    have handler := Decode.lookup_of_same (f := fun value => (Decode.script value).toOption)
      Decode.script_alike "handle" same
    simp only [clause?]
    generalize Table.lookup "catch" entries = first, Table.lookup "catch" others = first',
      Table.lookup "handle" entries = second, Table.lookup "handle" others = second' at *
    cases first <;> cases first' <;> cases second <;> cases second' <;> simp_all
  | array same =>
    rcases same with _ | ⟨matcher, _ | ⟨handler, _ | _⟩⟩
    · rfl
    · simp [clause?, Decode.text?_of_same matcher]
    · simp [clause?, Decode.text?_of_same matcher, Decode.script_alike handler]
    · rfl
  | _ => rfl

theorem exceptionClauses_alike : Decode.Alike exceptionClauses := by
  intro value other h
  unfold exceptionClauses
  rw [Decode.text?_of_same h]
  cases Same.of_same h with
  | array same => simp only [Decode.text?, Decode.mapM_of_same clause?_of_same same]
  | _ => rfl

end HandlerConfig

/-! ## The field of a key -/

/-- The keys of which the source of a handler is made. -/
def HandlerChanges.scriptKeys : List String :=
  ["namespace", "condition", "deny", "handle", "exception"]

/-- The keys of which the source of a task is made. -/
def ScheduleChanges.scriptKeys : List String := ["namespace", "execute"]

/-- The keys that say when a schedule runs. -/
def ScheduleChanges.timingKeys : List String := ["async", "start", "end", "period", "date-format"]

namespace Decode

variable {α β : Type} {set : α → String → Toml.Value → Except DecodeProblem α} {key : String}
  {read : Toml.Value → Except DecodeProblem β} {field : α → β}

/-- A key sets a field to what is read off its value, and no other key does. -/
def Sets (set : α → String → Toml.Value → Except DecodeProblem α) (key : String)
    (read : Toml.Value → Except DecodeProblem β) (field : α → β) : Prop :=
  ∀ config name value config', set config name value = .ok config' →
    if name = key then read value = .ok (field config') else field config' = field config

/-- What a field is after an entry: what its key has, if that is there. -/
theorem Sets.entry (sets : Sets set key read field) {kind : EntryKind} {id : String} :
    ∀ {entries : List (String × Toml.Value)} {start config : α},
      (entries.Pairwise fun a b => a.1 < b.1) →
      entries.foldlM (fun config (e : String × Toml.Value) =>
        (set config e.1 e.2).mapError fun problem =>
          (⟨kind, id, e.1, problem⟩ : ConfigError)) start = .ok config →
      (Table.lookup key entries = none ∧ field config = field start) ∨
        ∃ value, Table.lookup key entries = some value ∧ read value = .ok (field config) := by
  intro entries
  induction entries with
  | nil =>
    intro start config _ h
    cases h
    exact .inl ⟨rfl, rfl⟩
  | cons entry rest ih =>
    intro start config sorted h
    obtain ⟨name, value⟩ := entry
    obtain ⟨above, sorted⟩ := List.pairwise_cons.1 sorted
    rw [List.foldlM_cons, bind_eq_ok] at h
    obtain ⟨middle, step, h⟩ := h
    have step : set start name value = .ok middle := by
      cases made : set start name value <;> simp_all [Except.mapError]
    have first := sets _ _ _ _ step
    rw [Table.lookup]
    by_cases same : name = key
    · subst same
      rw [if_pos rfl] at first ⊢
      rcases ih sorted h with ⟨-, eq⟩ | ⟨later, found, -⟩
      · exact .inr ⟨value, rfl, eq ▸ first⟩
      · exact absurd (above _ (Table.mem_of_lookup_eq_some found)) (String.lt_irrefl name)
    · rw [if_neg same] at first ⊢
      rcases ih sorted h with ⟨none, eq⟩ | found
      · exact .inl ⟨none, eq.trans first⟩
      · exact .inr found

/-- Two entries that agree on a key agree on the field that it sets. -/
theorem Sets.agree (sets : Sets set key read field) (alike : Alike read) {kind : EntryKind}
    {id id' : String} {start config config' : α} {entry other : ConfigEntry}
    (h : Decode.entry kind id start set entry = .ok config)
    (h' : Decode.entry kind id' start set other = .ok config') (agree : entry.agreesOn other key) :
    field config = field config' := by
  have first := sets.entry entry.sorted h
  have second := sets.entry other.sorted h'
  unfold ConfigEntry.agreesOn Table.get? at agree
  rcases first with ⟨none, eq⟩ | ⟨value, found, read⟩ <;>
    rcases second with ⟨none', eq'⟩ | ⟨value', found', read'⟩
  · rw [eq, eq']
  · simp [none, found'] at agree
  · simp [none', found] at agree
  · rw [found, found'] at agree
    have same := alike agree
    rw [read, read'] at same
    exact Option.some.inj same

end Decode

namespace HandlerConfig

variable {id id' : String} {entry other : ConfigEntry} {config config' : HandlerConfig}

/-- Which key sets which field. -/
theorem setKey_sets :
    Decode.Sets setKey "bind" Decode.strings bind ∧
    Decode.Sets setKey "priority" Decode.integer priority ∧
    Decode.Sets setKey "namespace" Decode.strings namespaces ∧
    Decode.Sets setKey "condition" Decode.script condition ∧
    Decode.Sets setKey "deny" Decode.script deny ∧
    Decode.Sets setKey "handle" Decode.script handle ∧
    Decode.Sets setKey "exception" exceptionClauses exceptions := by
  refine ⟨?_, ?_, ?_, ?_, ?_, ?_, ?_⟩
  all_goals
    intro config name value config' made
    unfold setKey at made
    split at made
    case h_8 => cases made; simp_all
    all_goals
      simp only [bind_eq_ok, pure_eq_ok] at made
      obtain ⟨_, read, rfl⟩ := made
      simp [read]

theorem bind_of_agrees (h : ofEntry id entry = .ok config) (h' : ofEntry id' other = .ok config')
    (agree : entry.agreesOn other "bind") : config.bind = config'.bind :=
  setKey_sets.1.agree Decode.strings_alike h h' agree

theorem priority_of_agrees (h : ofEntry id entry = .ok config)
    (h' : ofEntry id' other = .ok config') (agree : entry.agreesOn other "priority") :
    config.priority = config'.priority :=
  setKey_sets.2.1.agree Decode.integer_alike h h' agree

/-- Entries that agree on the keys of the script give the same script: they differ in the
dispatchers and the priority alone. -/
theorem script_of_agrees (h : ofEntry id entry = .ok config) (h' : ofEntry id' other = .ok config')
    (agree : ∀ key ∈ HandlerChanges.scriptKeys, entry.agreesOn other key) :
    config' = { config with bind := config'.bind, priority := config'.priority } := by
  obtain ⟨-, -, namespaces, condition, deny, handle, exceptions⟩ := setKey_sets
  have same₁ := namespaces.agree Decode.strings_alike h h' (agree _ (by decide))
  have same₂ := condition.agree Decode.script_alike h h' (agree _ (by decide))
  have same₃ := deny.agree Decode.script_alike h h' (agree _ (by decide))
  have same₄ := handle.agree Decode.script_alike h h' (agree _ (by decide))
  have same₅ := exceptions.agree exceptionClauses_alike h h' (agree _ (by decide))
  rw [same₁, same₂, same₃, same₄, same₅]

end HandlerConfig

namespace ScheduleConfig

variable {id id' : String} {entry other : ConfigEntry} {config config' : ScheduleConfig}

theorem setKey_sets :
    Decode.Sets setKey "date-format" (fun value => (Decode.string value).map some) dateFormat ∧
    Decode.Sets setKey "async" Decode.boolean async ∧
    Decode.Sets setKey "start" (fun value => (Decode.string value).map some) start ∧
    Decode.Sets setKey "end" (fun value => (Decode.string value).map some) stop ∧
    Decode.Sets setKey "period" (fun value => (Decode.string value).map some) period ∧
    Decode.Sets setKey "namespace" Decode.strings namespaces ∧
    Decode.Sets setKey "execute" (fun value => (Decode.script value).map some) execute := by
  refine ⟨?_, ?_, ?_, ?_, ?_, ?_, ?_⟩
  all_goals
    intro config name value config' made
    unfold setKey at made
    split at made
    case h_8 => cases made; simp_all
    all_goals
      simp only [bind_eq_ok, pure_eq_ok] at made
      obtain ⟨_, read, rfl⟩ := made
      simp [read, Except.map]

theorem script_of_agrees (h : ofEntry id entry = .ok config) (h' : ofEntry id' other = .ok config')
    (agree : ∀ key ∈ ScheduleChanges.scriptKeys, entry.agreesOn other key) :
    config.namespaces = config'.namespaces ∧ config.execute = config'.execute := by
  obtain ⟨-, -, -, -, -, namespaces, execute⟩ := setKey_sets
  exact ⟨namespaces.agree Decode.strings_alike h h' (agree _ (by decide)),
    execute.agree (Decode.script_alike.map some) h h' (agree _ (by decide))⟩

theorem times_of_agrees (h : ofEntry id entry = .ok config) (h' : ofEntry id' other = .ok config')
    (agree : ∀ key ∈ ScheduleChanges.timingKeys, entry.agreesOn other key) :
    config' = { config with namespaces := config'.namespaces, execute := config'.execute } := by
  obtain ⟨dateFormat, async, start, stop, period, -, -⟩ := setKey_sets
  have text := Decode.string_alike.map some
  have same₁ := dateFormat.agree text h h' (agree _ (by decide))
  have same₂ := async.agree Decode.boolean_alike h h' (agree _ (by decide))
  have same₃ := start.agree text h h' (agree _ (by decide))
  have same₄ := stop.agree text h h' (agree _ (by decide))
  have same₅ := period.agree text h h' (agree _ (by decide))
  rw [same₁, same₂, same₃, same₄, same₅]

end ScheduleConfig

/-! ## Changed keys -/

theorem Table.mem_keys_ofList {α : Type} {name : String} {list : List (String × α)}
    (h : name ∈ list.map (·.1)) : name ∈ (Table.ofList list).keys := by
  have kept : ∀ (list : List (String × α)) (t : Table α), (t.get? name).isSome ∨
      name ∈ list.map (·.1) →
      ((list.foldl (fun t e => t.insert e.1 e.2) t).get? name).isSome := by
    intro list
    induction list with
    | nil => simp
    | cons entry rest ih =>
      intro t h
      refine ih _ ?_
      rw [Table.get?_insert]
      split
      · exact .inl rfl
      · rename_i other
        simpa [Ne.symm other] using h
  obtain ⟨value, found⟩ := Option.isSome_iff_exists.1 (kept list .empty (.inr h))
  exact List.mem_map.2 ⟨(name, value), (Table.mem_entries_iff ..).2 found, rfl⟩

theorem Table.mem_keys {α : Type} {t : Table α} {name : String} : name ∈ t.keys ↔
    (t.get? name).isSome := by
  simp only [Table.keys, List.mem_map, Option.isSome_iff_exists, ← Table.mem_entries_iff]
  constructor
  · rintro ⟨⟨_, value⟩, mem, rfl⟩
    exact ⟨value, mem⟩
  · rintro ⟨value, mem⟩
    exact ⟨_, mem, rfl⟩

theorem ConfigEntry.agreesOn_of_not_changed {entry other : ConfigEntry} {key : String}
    (h : key ∉ entry.changedKeys other) : entry.agreesOn other key := by
  by_cases known : key ∈ entry.keys ++ other.keys
  · have listed : key ∈ (Table.ofList ((entry.keys ++ other.keys).map fun key => (key, ()))).keys :=
      Table.mem_keys_ofList (by simpa [Function.comp_def] using known)
    simp only [changedKeys, List.mem_filter, listed, true_and] at h
    simpa using h
  · rw [List.mem_append, Table.mem_keys, Table.mem_keys] at known
    simp only [not_or, Option.not_isSome_iff_eq_none] at known
    rw [agreesOn, known.1, known.2]

/-- What the change of some keys calls for, if each of some others calls for it and no other
does. -/
theorem flag_foldl_add {χ : Type} {add : χ → String → χ} {flag : χ → Bool} {calling : List String}
    (each : ∀ changes key, flag (add changes key) = (flag changes || calling.contains key))
    (keys : List String) : ∀ changes : χ,
      flag (keys.foldl add changes) ↔ flag changes ∨ ∃ key ∈ keys, key ∈ calling := by
  induction keys with
  | nil => simp
  | cons key rest ih =>
    intro changes
    rw [List.foldl_cons, ih, each]
    simp [or_assoc]

namespace HandlerChanges

variable {keys : List String}

/-- What the change of one key adds to each flag. -/
theorem add_flags (changes : HandlerChanges) (key : String) :
    (add changes key).rebind = (changes.rebind || ["bind"].contains key) ∧
      (add changes key).reorder = (changes.reorder || ["bind", "priority"].contains key) ∧
      (add changes key).recompile = (changes.recompile || scriptKeys.contains key) := by
  unfold add
  split <;> simp_all [scriptKeys]

theorem rebind_ofKeys : (ofKeys keys).rebind ↔ "bind" ∈ keys := by
  simp [ofKeys, flag_foldl_add fun changes key => (add_flags changes key).1]

theorem reorder_ofKeys : (ofKeys keys).reorder ↔ "bind" ∈ keys ∨ "priority" ∈ keys := by
  simp [ofKeys, flag_foldl_add fun changes key => (add_flags changes key).2.1]
  grind

/-- A handler is compiled anew if a key changed of which its source is made. -/
theorem recompile_ofKeys :
    (ofKeys keys).recompile ↔ ∃ key ∈ keys, key ∈ scriptKeys := by
  simp [ofKeys, flag_foldl_add fun changes key => (add_flags changes key).2.2]

end HandlerChanges

namespace ScheduleChanges

variable {keys : List String}

theorem add_flags (changes : ScheduleChanges) (key : String) :
    (add changes key).recompile = (changes.recompile || scriptKeys.contains key) ∧
      (add changes key).restart = (changes.restart || timingKeys.contains key) := by
  unfold add
  split <;> simp_all [scriptKeys, timingKeys]

theorem recompile_ofKeys :
    (ofKeys keys).recompile ↔ ∃ key ∈ keys, key ∈ scriptKeys := by
  simp [ofKeys, flag_foldl_add fun changes key => (add_flags changes key).1]

/-- A task starts anew if a key changed that says when it runs. -/
theorem restart_ofKeys :
    (ofKeys keys).restart ↔ ∃ key ∈ keys, key ∈ timingKeys := by
  simp [ofKeys, flag_foldl_add fun changes key => (add_flags changes key).2]

end ScheduleChanges
end ScriptHost
