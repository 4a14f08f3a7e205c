import ScriptHost.Proofs.Project.Registries
/-!
# The definitions that a load accepts

The files of a directory, read in order, are a list of definitions. Of those with one id the
first that can be read is accepted, whatever kind of entity is loaded; `read` says what an entry
comes to, if it can be read.

**Results.**
* `find?_accepted`: what is accepted under an id.
* `loadFiles_follows`: a load goes through the accepted definitions one by one, so that what
  holds of the registry and the surroundings can be told from them.
-/
namespace ScriptHost

/-- An entry of a file that is not disabled. -/
structure Definition where
  file : String
  id : String
  entry : ConfigEntry

namespace Registry

/-- The definition that an entry of a file is, if it is one. -/
def definitionOf? (file : String) (value : String × Toml.Value) : Option Definition :=
  match ConfigEntry.ofValue? value.2 with
  | none => none
  | some entry => if entry.isDisabled then none else some ⟨file, value.1, entry⟩

def definitions (files : List (String × ConfigDocument)) : List Definition :=
  files.flatMap fun file => file.2.toList.filterMap (definitionOf? file.1)

variable {V : Type} (read : String → ConfigEntry → Option V)

/-- Whether a definition of an id is among some that were accepted. -/
def isTaken (taken : List (Definition × V)) (id : String) : Bool := taken.any (·.1.id == id)

/-- Accepts a definition that can be read, if its id is new. -/
def accept (taken : List (Definition × V)) (x : Definition) : List (Definition × V) :=
  if isTaken taken x.id then taken
  else
    match read x.id x.entry with
    | none => taken
    | some value => taken ++ [(x, value)]

def accepted (files : List (String × ConfigDocument)) : List (Definition × V) :=
  (definitions files).foldl (accept read) []

/-! ## What is accepted -/

/-- The first of some definitions that defines an id and can be read. -/
def firstOf (id : String) (list : List Definition) : Option (Definition × V) :=
  list.findSome? fun x =>
    if x.id = id then (read x.id x.entry).map fun value => (x, value) else none

theorem isTaken_eq (taken : List (Definition × V)) (id : String) :
    isTaken taken id = (taken.find? (·.1.id == id)).isSome := by
  rw [Bool.eq_iff_iff, List.find?_isSome, isTaken, List.any_eq_true]

variable {read}

theorem firstOf_cons (id : String) (x : Definition) (rest : List Definition) :
    firstOf read id (x :: rest) =
      (if x.id = id then (read x.id x.entry).map fun value => (x, value) else none).or
        (firstOf read id rest) := by
  rw [firstOf, List.findSome?_cons]
  split <;> rename_i eq <;> simp [eq, firstOf]

theorem find?_accept (id : String) : ∀ (list : List Definition) (taken : List (Definition × V)),
    (list.foldl (accept read) taken).find? (·.1.id == id) =
      (taken.find? (·.1.id == id)).or (firstOf read id list)
  | [], taken => by simp [firstOf]
  | x :: rest, taken => by
    rw [List.foldl_cons, find?_accept id rest, firstOf_cons]
    unfold accept
    split
    · -- a definition of the id was accepted before
      rename_i old
      by_cases same : x.id = id
      · subst same
        obtain ⟨y, found⟩ :=
          Option.isSome_iff_exists.1 (List.find?_isSome.2 (List.any_eq_true.1 old))
        simp [found]
      · simp [same]
    · cases made : read x.id x.entry with
      | none => simp
      | some value => by_cases same : x.id = id <;> simp [same, List.find?_append]

/-- Under an id the first definition that can be read is accepted. -/
theorem find?_accepted (files : List (String × ConfigDocument)) (id : String) :
    (accepted read files).find? (·.1.id == id) = firstOf read id (definitions files) := by
  rw [accepted, find?_accept]
  rfl

/-! ## The load of accepted definitions -/

section Following

variable {σ α : Type} {kind : EntityKind σ α} {I : List (Definition × V) → Registry α → σ → Prop}
  (known : ∀ {done r s}, I done r s → ∀ id, r.contains id = isTaken done id)
  (failed : ∀ {done r s id entry s'}, I done r s → kind.create id entry s = (none, s') →
    read id entry = none ∧ I done r s')
  (created : ∀ {done r s id entry file a s'}, I done r s → r.contains id = false →
    kind.create id entry s = (some a, s') →
    ∃ value, read id entry = some value ∧
      I (done ++ [(⟨file, id, entry⟩, value)]) (r.insert id ⟨file, a⟩) s')

include known failed created

theorem loadDefinition_follows (file : String) (value : String × Toml.Value) {l : Loading σ α}
    {done : List (Definition × V)} (h : I done l.registry l.surroundings) :
    I ((definitionOf? file value).elim done (accept read done))
      (loadDefinition kind file l value).registry
      (loadDefinition kind file l value).surroundings := by
  obtain ⟨id, value⟩ := value
  simp only [loadDefinition, definitionOf?]
  cases ConfigEntry.ofValue? value with
  | none => exact h
  | some entry =>
    simp only
    split
    · exact h
    · simp only [Option.elim_some, accept, ← known h]
      split
      · exact h
      · rename_i new
        have new : l.registry.contains id = false := by simpa using new
        cases made : kind.create id entry l.surroundings with
        | mk entity after =>
          cases entity with
          | none =>
            obtain ⟨unread, h⟩ := failed h made
            rw [unread]
            exact h
          | some entity =>
            obtain ⟨value, read', h⟩ := created h new made
            rw [read']
            exact h

/-- A load goes through the accepted definitions one by one. -/
theorem loadFiles_follows : ∀ (files : List (String × ConfigDocument)) {l : Loading σ α}
    {done : List (Definition × V)}, I done l.registry l.surroundings →
    I ((definitions files).foldl (accept read) done) (files.foldl (loadFile kind) l).registry
      (files.foldl (loadFile kind) l).surroundings
  | [], _, _, h => h
  | (file, document) :: rest, l, done, h => by
    have inFile : ∀ (values : List (String × Toml.Value)) {l : Loading σ α}
        {done : List (Definition × V)}, I done l.registry l.surroundings →
        I ((values.filterMap (definitionOf? file)).foldl (accept read) done)
          (values.foldl (loadDefinition kind file) l).registry
          (values.foldl (loadDefinition kind file) l).surroundings := by
      intro values
      induction values with
      | nil => exact id
      | cons value values ih =>
        intro l done h
        have h := loadDefinition_follows known failed created file value h
        rw [List.filterMap_cons]
        cases made : definitionOf? file value with
        | none =>
          rw [made] at h
          exact ih h
        | some x =>
          rw [made] at h
          exact ih h
    rw [definitions, List.flatMap_cons, List.foldl_append]
    exact loadFiles_follows rest (inFile document.toList h)

end Following

end Registry
end ScriptHost
