import Mathlib.Data.List.Nodup
import ScriptHost.Proofs.Config.Changes
import ScriptHost.Proofs.Project.Definitions
/-!
# What registries hold

What a registry holds under an id: the place of the file that defines it, its entry, and what
that comes to. Taking over a file changes what is held under each id by itself, so that what
comes of many files, one after the other, can be told id by id.

**Faithful kinds.** A kind of entities is `Faithful` if what is held of them follows from the
entries that they are given. What is proved here holds of every such kind.

**Overtaken ids.** An id that went from one file to another is a conflict as long as the first
file has not been taken over, and is gone when it is. So it gets lost if the files are taken over
in the wrong order, and this is all that can get lost.

**Results.**
* `sync_holdings`: what is held after a file was taken over.
* `foldl_syncAt`: what is held after files were taken over in any order.
-/
namespace ScriptHost

structure Holding (V : Type) where
  /-- Where the file is that defines the id. -/
  place : List PathComponent
  entry : ConfigEntry
  config : V

namespace Registry

variable {V : Type}

/-! ## One id -/

section OneId

variable (read : String → ConfigEntry → Option V) (id : String)

/-- What a file of a place holds under an id, if it defines it. -/
def offered (file : List PathComponent × ConfigDocument) : Option (Holding V) :=
  (definition? file.2 id).bind fun entry =>
    (read id entry).map fun config => ⟨file.1, entry, config⟩

/-- What becomes of what is held under an id when a file is taken over. A file that holds it
already may give it another entry or let it go; no other file may. -/
def syncAt (held : Option (Holding V)) (file : List PathComponent × ConfigDocument) :
    Option (Holding V) :=
  match held with
  | none => offered read id file
  | some x =>
    if x.place = file.1 then
      (definition? file.2 id).map fun entry =>
        (read id entry).elim x fun config => ⟨file.1, entry, config⟩
    else some x

variable {read id} {files : List (List PathComponent × ConfigDocument)}

theorem offered_place {file : List PathComponent × ConfigDocument} {x : Holding V}
    (offers : offered read id file = some x) : x.place = file.1 := by
  simp only [offered, Option.bind_eq_some_iff, Option.map_eq_some_iff] at offers
  obtain ⟨entry, -, config, -, rfl⟩ := offers
  rfl

theorem foldl_syncAt_elsewhere {x : Holding V} (elsewhere : ∀ file ∈ files, x.place ≠ file.1) :
    files.foldl (syncAt read id) (some x) = some x := by
  induction files with
  | nil => rfl
  | cons file rest ih =>
    rw [List.foldl_cons, syncAt, if_neg (elsewhere file (.head _))]
    exact ih fun other mem => elsewhere other (.tail _ mem)

/-- Files that are at different places, of which one at most defines an id. -/
structure Distinct (id : String) (files : List (List PathComponent × ConfigDocument)) : Prop where
  apart : (files.map (·.1)).Nodup
  single : ∀ file ∈ files, ∀ other ∈ files, (definition? file.2 id).isSome →
    (definition? other.2 id).isSome → file.1 = other.1

theorem Distinct.tail {file : List PathComponent × ConfigDocument}
    (distinct : Distinct id (file :: files)) : Distinct id files :=
  ⟨(List.nodup_cons.1 distinct.apart).2, fun _ mem _ mem' =>
    distinct.single _ (.tail _ mem) _ (.tail _ mem')⟩

theorem Distinct.elsewhere {file : List PathComponent × ConfigDocument}
    (distinct : Distinct id (file :: files)) : ∀ other ∈ files, file.1 ≠ other.1 := by
  intro other mem same
  exact (List.nodup_cons.1 distinct.apart).1 (List.mem_map.2 ⟨other, mem, same.symm⟩)

theorem foldl_syncAt_none (distinct : Distinct id files) :
    files.foldl (syncAt read id) none = files.findSome? (offered read id) := by
  induction files with
  | nil => rfl
  | cons file rest ih =>
    rw [List.foldl_cons, List.findSome?_cons, syncAt]
    cases offers : offered read id file with
    | none => exact ih distinct.tail
    | some x =>
      refine foldl_syncAt_elsewhere fun other mem => ?_
      rw [offered_place offers]
      exact distinct.elsewhere other mem

end OneId

/-! ## In any order -/

section InAnyOrder

variable {read : String → ConfigEntry → Option V} {id : String}
  {files : List (List PathComponent × ConfigDocument)}

/-- An id went from one place to another, and what is at the latter was taken over first. -/
def Overtaken (before after : Option (Holding V)) (places : List (List PathComponent)) : Prop :=
  ∃ x y, before = some x ∧ after = some y ∧ [y.place, x.place].Sublist places

/-- What is held under an id is now another thing, and some files say so. -/
structure Said (read : String → ConfigEntry → Option V) (id : String)
    (files : List (List PathComponent × ConfigDocument)) (before after : Option (Holding V)) :
    Prop where
  distinct : Distinct id files
  readable : ∀ file ∈ files, ∀ entry, definition? file.2 id = some entry → (read id entry).isSome
  /-- What one of the files offers. -/
  defined : ∀ file ∈ files, (definition? file.2 id).isSome → after = offered read id file
  /-- What none of the files defines is held elsewhere, or not any more. -/
  undefined : (∀ file ∈ files, definition? file.2 id = none) → ∀ x, after = some x →
    before = some x ∧ x.place ∉ files.map (·.1)
  /-- What is held elsewhere stays. -/
  untouched : ∀ x, before = some x → x.place ∉ files.map (·.1) → after = some x

variable {before after : Option (Holding V)}

/-- In a list without repetitions, what comes before a member is what stands in front of it. -/
theorem pair_sublist_iff {α : Type} {x y : α} {first rest : List α}
    (nodup : (first ++ x :: rest).Nodup) : [y, x].Sublist (first ++ x :: rest) ↔ y ∈ first := by
  refine ⟨fun sublist => ?_, fun mem => ?_⟩
  · obtain ⟨start, stop, eq, inFirst, inRest⟩ := List.sublist_append_iff.1 sublist
    match start, eq with
    | [], eq =>
      subst eq
      have apart := (List.nodup_append.1 nodup).2.1
      rcases List.sublist_cons_iff.1 inRest with later | ⟨_, eq, later⟩
      · exact absurd (later.subset (by simp)) (List.nodup_cons.1 apart).1
      · cases eq
        exact absurd (later.subset (.head _)) (List.nodup_cons.1 apart).1
    | [_], eq =>
      obtain ⟨rfl, -⟩ := List.cons.inj eq
      exact inFirst.subset (.head _)
    | _ :: _ :: _, eq =>
      obtain ⟨-, eq⟩ := List.cons.inj eq
      obtain ⟨rfl, -⟩ := List.cons.inj eq
      have again : x ∈ first := inFirst.subset (by simp)
      exact absurd rfl ((List.nodup_append.1 nodup).2.2 x again x (.head _))
  · exact (List.singleton_sublist.2 mem).append (List.singleton_sublist.2 (.head _))

/-- An id whose place is among those that are taken over is overtaken if it is now at one in front
of that. -/
theorem overtaken_iff {x : Holding V} {places later : List (List PathComponent)}
    (apart : (places ++ x.place :: later).Nodup) :
    Overtaken (some x) after (places ++ x.place :: later) ↔
      ∃ y, after = some y ∧ y.place ∈ places := by
  refine ⟨fun ⟨_, y, held, now, sublist⟩ => ?_, fun ⟨y, now, inFront⟩ => ?_⟩
  · cases held
    exact ⟨y, now, (pair_sublist_iff apart).1 sublist⟩
  · exact ⟨x, y, rfl, now, (pair_sublist_iff apart).2 inFront⟩

theorem defined_or_none (id : String) (files : List (List PathComponent × ConfigDocument)) :
    (∃ file ∈ files, (definition? file.2 id).isSome) ∨
      ∀ file ∈ files, definition? file.2 id = none := by
  by_cases defined : ∃ file ∈ files, (definition? file.2 id).isSome
  · exact .inl defined
  · exact .inr fun file mem =>
      Option.not_isSome_iff_eq_none.1 fun defines => defined ⟨file, mem, defines⟩

theorem findSome?_offered (distinct : Distinct id files)
    {file : List PathComponent × ConfigDocument}
    (mem : file ∈ files) (defines : (definition? file.2 id).isSome) :
    files.findSome? (offered read id) = offered read id file := by
  have others : ∀ other ∈ files, other ≠ file → offered read id other = none := by
    intro other mem' differs
    cases found : definition? other.2 id with
    | none => simp [offered, found]
    | some entry =>
      have same := distinct.single file mem other mem' defines (by simp [found])
      exact absurd (List.inj_on_of_nodup_map distinct.apart mem' mem same.symm) differs
  cases offers : offered read id file with
  | none =>
    refine List.findSome?_eq_none_iff.2 fun other mem' => ?_
    by_cases same : other = file
    · exact same ▸ offers
    · exact others other mem' same
  | some x =>
    have offered : (files.findSome? (offered read id)).isSome :=
      List.findSome?_isSome_iff.2 ⟨file, mem, Option.isSome_of_eq_some offers⟩
    obtain ⟨y, found⟩ := Option.isSome_iff_exists.1 offered
    obtain ⟨other, mem', offers'⟩ := List.exists_of_findSome?_eq_some found
    by_cases same : other = file
    · rw [found, ← offers', same, offers]
    · cases (others other mem' same).symm.trans offers'

theorem findSome?_offered_none (nothing : ∀ file ∈ files, definition? file.2 id = none) :
    files.findSome? (offered read id) = none :=
  List.findSome?_eq_none_iff.2 fun file mem => by simp [offered, nothing file mem]

/-- The files in front of the one that holds an id leave it alone. -/
theorem Distinct.foldl_owner {x : Holding V}
    {first rest : List (List PathComponent × ConfigDocument)}
    {owner : List PathComponent × ConfigDocument} (distinct : Distinct id (first ++ owner :: rest))
    (place : x.place = owner.1) :
    (first ++ owner :: rest).foldl (syncAt read id) (some x) =
      rest.foldl (syncAt read id) ((definition? owner.2 id).map fun entry =>
        (read id entry).elim x fun config => ⟨owner.1, entry, config⟩) := by
  have apart := distinct.apart
  rw [List.map_append, List.map_cons] at apart
  have reached : first.foldl (syncAt read id) (some x) = some x := by
    refine foldl_syncAt_elsewhere fun file mem same => ?_
    exact (List.nodup_append.1 apart).2.2 file.1 (List.mem_map_of_mem mem) owner.1 (.head _)
      (same.symm.trans place)
  rw [List.foldl_append, List.foldl_cons, reached, syncAt, if_pos place]

theorem Distinct.behind {first rest : List (List PathComponent × ConfigDocument)}
    (distinct : Distinct id (first ++ rest)) : Distinct id rest :=
  ⟨(List.nodup_append.1 (List.map_append ▸ distinct.apart)).2.1, fun _ mem _ mem' =>
    distinct.single _ (List.mem_append_right _ mem) _ (List.mem_append_right _ mem')⟩

namespace Said

theorem foldl_none (said : Said read id files none after) :
    files.foldl (syncAt read id) none = after := by
  rw [foldl_syncAt_none said.distinct]
  rcases defined_or_none id files with ⟨file, mem, defines⟩ | nothing
  · rw [findSome?_offered said.distinct mem defines, said.defined file mem defines]
  · rw [findSome?_offered_none nothing]
    cases found : after with
    | none => rfl
    | some x => cases (said.undefined nothing x found).1

section Owner

variable {x : Holding V} {first rest : List (List PathComponent × ConfigDocument)}
  {owner : List PathComponent × ConfigDocument}

theorem foldl_kept (said : Said read id (first ++ owner :: rest) (some x) after)
    (place : x.place = owner.1) (defines : (definition? owner.2 id).isSome) :
    (first ++ owner :: rest).foldl (syncAt read id) (some x) = after := by
  have owns : owner ∈ first ++ owner :: rest := by simp
  obtain ⟨entry, defined⟩ := Option.isSome_iff_exists.1 defines
  obtain ⟨config, known⟩ := Option.isSome_iff_exists.1 (said.readable owner owns entry defined)
  have offers : offered read id owner = some ⟨owner.1, entry, config⟩ := by
    simp [offered, defined, known]
  rw [said.distinct.foldl_owner place, defined, Option.map_some, known, Option.elim_some,
    said.defined owner owns defines, offers]
  exact foldl_syncAt_elsewhere said.distinct.behind.elsewhere

/-- The file that held an id lets it go, and one that comes later defines it. -/
theorem foldl_moved (said : Said read id (first ++ owner :: rest) (some x) after)
    (place : x.place = owner.1) (released : definition? owner.2 id = none)
    {file : List PathComponent × ConfigDocument} (mem : file ∈ rest)
    (defines : (definition? file.2 id).isSome) :
    (first ++ owner :: rest).foldl (syncAt read id) (some x) = after := by
  have distinct := said.distinct.behind.tail
  rw [said.distinct.foldl_owner place, released, Option.map_none, foldl_syncAt_none distinct,
    findSome?_offered distinct mem defines, said.defined file (by simp [mem]) defines]

/-- The file that held an id lets it go, and none that comes later defines it. -/
theorem foldl_lost (said : Said read id (first ++ owner :: rest) (some x) after)
    (place : x.place = owner.1) (nothing : ∀ file ∈ owner :: rest, definition? file.2 id = none) :
    (first ++ owner :: rest).foldl (syncAt read id) (some x) = none := by
  rw [said.distinct.foldl_owner place, nothing owner (.head _), Option.map_none,
    foldl_syncAt_none said.distinct.behind.tail,
    findSome?_offered_none fun file mem => nothing file (.tail _ mem)]

/-- What is held now if neither the file that held it nor a later one defines it: what a file in
front of these offers, if anything. -/
theorem place_of_lost (said : Said read id (first ++ owner :: rest) (some x) after)
    (place : x.place = owner.1) (nothing : ∀ file ∈ owner :: rest, definition? file.2 id = none)
    {y : Holding V} (now : after = some y) : y.place ∈ first.map (·.1) := by
  rcases defined_or_none id first with ⟨file, mem, defines⟩ | nobody
  · have offers := now.symm.trans (said.defined file (by simp [mem]) defines)
    exact List.mem_map.2 ⟨file, mem, (offered_place offers.symm).symm⟩
  · obtain ⟨same, away⟩ := said.undefined (List.forall_mem_append.2 ⟨nobody, nothing⟩) y now
    cases same
    exact absurd (List.mem_map.2 ⟨owner, by simp, place.symm⟩) away

theorem foldl_some (said : Said read id (first ++ owner :: rest) (some x) after)
    (place : x.place = owner.1) :
    let files := first ++ owner :: rest
    (Overtaken (some x) after (files.map (·.1)) →
        files.foldl (syncAt read id) (some x) = none) ∧
      (¬ Overtaken (some x) after (files.map (·.1)) →
        files.foldl (syncAt read id) (some x) = after) := by
  have apart := said.distinct.apart
  rw [List.map_append, List.map_cons] at apart
  have earlier := (List.nodup_append.1 apart).2.2
  have overtaken := @overtaken_iff _ after _ _ _ (place ▸ apart)
  simp only [List.map_append, List.map_cons, ← place, overtaken]
  -- an id is not overtaken if its file or a later one defines it
  have stays {file : List PathComponent × ConfigDocument} (mem : file ∈ owner :: rest)
      (defines : (definition? file.2 id).isSome) :
      ¬ ∃ y, after = some y ∧ y.place ∈ first.map (·.1) := by
    rintro ⟨y, now, inFront⟩
    rw [said.defined file (List.mem_append_right _ mem) defines] at now
    rw [offered_place now] at inFront
    exact earlier file.1 inFront file.1 (List.mem_map_of_mem (f := (·.1)) mem) rfl
  rcases defined_or_none id (owner :: rest) with ⟨file, mem, defines⟩ | nothing
  · have kept : (first ++ owner :: rest).foldl (syncAt read id) (some x) = after := by
      cases released : definition? owner.2 id with
      | some entry => exact said.foldl_kept place (Option.isSome_of_eq_some released)
      | none =>
        rcases List.mem_cons.1 mem with rfl | mem
        · simp [released] at defines
        · exact said.foldl_moved place released mem defines
    exact ⟨fun overtaken => absurd overtaken (stays mem defines), fun _ => kept⟩
  · rw [said.foldl_lost place nothing]
    refine ⟨fun _ => rfl, fun kept => ?_⟩
    cases now : after with
    | none => rfl
    | some y => exact absurd ⟨y, now, said.place_of_lost place nothing now⟩ kept

end Owner

/-- What is held under an id after files were taken over is what it is now, unless the id was
overtaken: then nothing is held. -/
theorem foldl_syncAt (said : Said read id files before after) :
    (Overtaken before after (files.map (·.1)) → files.foldl (syncAt read id) before = none) ∧
      (¬ Overtaken before after (files.map (·.1)) →
        files.foldl (syncAt read id) before = after) := by
  cases held : before with
  | none =>
    subst held
    refine ⟨fun ⟨x, _, nothing, _⟩ => ?_, fun _ => said.foldl_none⟩
    cases nothing
  | some x =>
    subst held
    by_cases there : x.place ∈ files.map (·.1)
    · obtain ⟨owner, mem, place⟩ := List.mem_map.1 there
      obtain ⟨first, rest, rfl⟩ := List.append_of_mem mem
      exact said.foldl_some place.symm
    · have stays : files.foldl (syncAt read id) (some x) = some x :=
        foldl_syncAt_elsewhere fun file mem same => there (same ▸ List.mem_map_of_mem mem)
      rw [stays]
      refine ⟨fun ⟨_, y, eq, _, sublist⟩ => ?_, fun _ => (said.untouched x rfl there).symm⟩
      cases eq
      exact absurd (sublist.subset (by simp)) there

end Said

end InAnyOrder

/-! ## What files define -/

section Documents

variable {read : String → ConfigEntry → Option V} {documents : List (String × ConfigDocument)}
  {file file' : String} {document document' : ConfigDocument} {id : String}

/-- What a load of some files holds under an id. -/
def heldBy (read : String → ConfigEntry → Option V) (documents : List (String × ConfigDocument))
    (id : String) : Option (Holding V) :=
  (firstOf read id (definitions documents)).map fun x =>
    ⟨Path.components x.1.file, x.1.entry, x.2⟩

/-- No id is defined in two files. -/
def Unshared (documents : List (String × ConfigDocument)) : Prop :=
  ∀ file document file' document' id, (file, document) ∈ documents →
    (file', document') ∈ documents → (definition? document id).isSome →
    (definition? document' id).isSome → Path.same file file'

/-- A file has one document. -/
def Consistent (documents : List (String × ConfigDocument)) : Prop :=
  ∀ file document file' document', (file, document) ∈ documents → (file', document') ∈ documents →
    Path.same file file' → document = document'

theorem definitionOf?_eq_some {name : String} {value : Toml.Value} {x : Definition} :
    definitionOf? file (name, value) = some x ↔ x.file = file ∧ x.id = name ∧
      (ConfigEntry.ofValue? value).filter (fun entry => !entry.isDisabled) = some x.entry := by
  obtain ⟨file', id, entry⟩ := x
  simp only [definitionOf?]
  cases ConfigEntry.ofValue? value with
  | none => simp
  | some entry' =>
    by_cases disabled : entry'.isDisabled
    · simp [disabled, Option.filter]
    · simp [disabled, Option.filter, eq_comm]

theorem mem_definitions {x : Definition} : x ∈ definitions documents ↔
    ∃ document, (x.file, document) ∈ documents ∧ definition? document x.id = some x.entry := by
  simp only [definitions, List.mem_flatMap, List.mem_filterMap, Prod.exists, definitionOf?_eq_some]
  constructor
  · rintro ⟨_, document, mem, _, value, mem', rfl, rfl, defined⟩
    refine ⟨document, mem, ?_⟩
    rw [definition?, (Table.mem_entries_iff ..).1 mem', Option.bind_some, defined]
  · rintro ⟨document, mem, defined⟩
    rw [definition?, Option.bind_eq_some_iff] at defined
    obtain ⟨value, found, defined⟩ := defined
    exact ⟨x.file, document, mem, x.id, value, (Table.mem_entries_iff ..).2 found, rfl, rfl,
      defined⟩

theorem heldBy_eq_some {x : Holding V} (held : heldBy read documents id = some x) :
    ∃ file document, (file, document) ∈ documents ∧ x.place = Path.components file ∧
      definition? document id = some x.entry ∧ read id x.entry = some x.config := by
  obtain ⟨⟨y, config⟩, first, rfl⟩ := Option.map_eq_some_iff.1 held
  obtain ⟨z, mem, is⟩ := List.exists_of_findSome?_eq_some first
  split at is
  · rename_i same
    obtain ⟨value, read', eq⟩ := Option.map_eq_some_iff.1 is
    cases eq
    obtain ⟨document, listed, defined⟩ := mem_definitions.1 mem
    exact ⟨y.file, document, listed, rfl, same ▸ defined, same ▸ read'⟩
  · cases is

theorem heldBy_eq_offered (unshared : Unshared documents) (consistent : Consistent documents)
    (mem : (file, document) ∈ documents) (defines : (definition? document id).isSome) :
    heldBy read documents id = offered read id (Path.components file, document) := by
  obtain ⟨entry, defined⟩ := Option.isSome_iff_exists.1 defines
  have only {file' document' entry'} (mem' : (file', document') ∈ documents)
      (defined' : definition? document' id = some entry') :
      Path.components file' = Path.components file ∧ entry' = entry := by
    have same := unshared file' document' file document id mem' mem (by simp [defined']) defines
    have eq := consistent file' document' file document mem' mem same
    subst eq
    exact ⟨by simpa [Path.same] using same, Option.some.inj (defined'.symm.trans defined)⟩
  cases held : heldBy read documents id with
  | some x =>
    obtain ⟨file', document', mem', place, defined', read'⟩ := heldBy_eq_some held
    obtain ⟨samePlace, sameEntry⟩ := only mem' defined'
    obtain ⟨_, _, _⟩ := x
    simp only at place sameEntry read'
    subst place sameEntry
    simp [offered, defined, read', samePlace]
  | none =>
    have unread : read id entry = none := by
      by_contra readable
      obtain ⟨config, read'⟩ := Option.ne_none_iff_exists'.1 readable
      have nothing := List.findSome?_eq_none_iff.1 (Option.map_eq_none_iff.1 held) ⟨file, id, entry⟩
        (mem_definitions.2 ⟨document, mem, defined⟩)
      simp [read'] at nothing
    simp [offered, defined, unread]

/-! ### Edited files -/

/-- Some files were edited, made or removed: they are at different places, and every other file
has the document that it had. -/
structure Edited (old new : List (String × ConfigDocument))
    (files : List (List PathComponent × ConfigDocument)) : Prop where
  apart : (files.map (·.1)).Nodup
  /-- A file is there with its document, or it is gone and has none. -/
  present : ∀ place document, (place, document) ∈ files →
    (∃ file, (file, document) ∈ new ∧ Path.components file = place) ∨
      document = .empty ∧ ∀ file other, (file, other) ∈ new → Path.components file ≠ place
  stays : ∀ file document, (file, document) ∈ old → Path.components file ∉ files.map (·.1) →
    ∃ file', (file', document) ∈ new ∧ Path.same file' file
  wasThere : ∀ file document, (file, document) ∈ new → Path.components file ∉ files.map (·.1) →
    ∃ file', (file', document) ∈ old ∧ Path.same file' file

theorem Edited.said {old new : List (String × ConfigDocument)}
    {files : List (List PathComponent × ConfigDocument)} (edited : Edited old new files)
    (unshared : Unshared old) (unshared' : Unshared new) (consistent : Consistent old)
    (consistent' : Consistent new)
    (readable : ∀ file document entry, (file, document) ∈ new →
      definition? document id = some entry → (read id entry).isSome) :
    Said read id files (heldBy read old id) (heldBy read new id) := by
  have listed {f : List PathComponent × ConfigDocument} (mem : f ∈ files)
      (defines : (definition? f.2 id).isSome) :
      ∃ file, (file, f.2) ∈ new ∧ Path.components file = f.1 := by
    refine (edited.present f.1 f.2 mem).resolve_right fun ⟨gone, _⟩ => ?_
    rw [gone] at defines
    cases defines
  refine ⟨⟨edited.apart, fun f mem g mem' defines defines' => ?_⟩,
    fun f mem entry defined => ?_, fun f mem defines => ?_, fun nobody x held => ?_,
    fun x held away => ?_⟩
  · obtain ⟨file, listed₁, place⟩ := listed mem defines
    obtain ⟨file', listed₂, place'⟩ := listed mem' defines'
    have same := unshared' _ _ _ _ id listed₁ listed₂ defines defines'
    rw [← place, ← place']
    simpa [Path.same] using same
  · obtain ⟨file, listed, -⟩ := listed mem (by simp [defined])
    exact readable _ _ _ listed defined
  · obtain ⟨file, listed, place⟩ := listed mem defines
    rw [heldBy_eq_offered unshared' consistent' listed defines, place]
  · obtain ⟨file, document, mem, place, defined, -⟩ := heldBy_eq_some held
    have defines : (definition? document id).isSome := by simp [defined]
    have away : x.place ∉ files.map (·.1) := by
      intro there
      obtain ⟨f, mem', here⟩ := List.mem_map.1 there
      rcases edited.present f.1 f.2 mem' with ⟨file', mem'', place'⟩ | ⟨-, absent⟩
      · have same : Path.same file file' := by simp [Path.same, ← place, ← here, place']
        have eq := consistent' _ _ _ _ mem mem'' same
        rw [eq, nobody f mem'] at defines
        cases defines
      · exact absent file document mem (place.symm.trans here.symm)
    refine ⟨?_, away⟩
    obtain ⟨file', mem', same⟩ := edited.wasThere file document mem (place ▸ away)
    have place' : Path.components file' = Path.components file := by simpa [Path.same] using same
    rw [heldBy_eq_offered unshared consistent mem' defines, place',
      ← heldBy_eq_offered unshared' consistent' mem defines, held]
  · obtain ⟨file, document, mem, place, defined, -⟩ := heldBy_eq_some held
    have defines : (definition? document id).isSome := by simp [defined]
    obtain ⟨file', mem', same⟩ := edited.stays file document mem (place ▸ away)
    have place' : Path.components file' = Path.components file := by simpa [Path.same] using same
    rw [heldBy_eq_offered unshared' consistent' mem' defines, place',
      ← heldBy_eq_offered unshared consistent mem defines, held]

end Documents

/-! ## Faithful kinds -/

section Listed

variable {σ α : Type} (kind : EntityKind σ α) (file : String) (document : ConfigDocument)

/-- Makes the entity of an id that a file defines, unless it had one. -/
def syncListed (isOwned : String → Bool) (y : Syncing σ α) (id : String) : Syncing σ α :=
  (definition? document id).elim y fun entry =>
    if isOwned id then y else syncNew kind file y id entry

/-- Taking over a file: first the entities that it has, then its other ids. -/
theorem sync_eq (registry : Registry α) (s : σ) : ∃ failed, sync kind registry file document s =
    document.keys.foldl
      (syncListed kind file document fun id => (registry.ownedBy file).any (·.1 == id))
      ((registry.ownedBy file).foldl (syncOwned kind document) ⟨registry, s, { failed }⟩) := by
  refine ⟨(document.values.filter fun v => (ConfigEntry.ofValue? v).isNone).length, ?_⟩
  unfold sync syncListed
  refine congrArg (fun step => document.keys.foldl step _) ?_
  funext y id
  cases definition? document id <;> rfl

end Listed

section Faithful

variable {σ α : Type} (kind : EntityKind σ α) (read : String → ConfigEntry → Option V)
  (I : Registry α → σ → Prop) (holding : Registry α → σ → String → Option (Holding V))

/-- What is held of entities follows from the entries that they are given, while something stays
true of the registry and the surroundings. -/
structure Faithful : Prop where
  places : ∀ {r s}, I r s → ∀ id,
    (holding r s id).map (·.place) = (r.get? id).map fun owned => Path.components owned.file
  /-- An entry that can be read is taken over, any other is not. -/
  updated : ∀ {r s id owned}, I r s → r.get? id = some owned → ∀ entry,
    let r' := r.insert id ⟨owned.file, (kind.update owned.entity entry s).1⟩
    let s' := (kind.update owned.entity entry s).2
    I r' s' ∧ ∀ other, holding r' s' other =
      if other = id then (holding r s id).map fun x =>
        (read id entry).elim x fun config => ⟨x.place, entry, config⟩
      else holding r s other
  retired : ∀ {r s id owned}, I r s → r.get? id = some owned →
    I (r.erase id) (kind.retire owned.entity s) ∧
      ∀ other, holding (r.erase id) (kind.retire owned.entity s) other =
        if other = id then none else holding r s other
  failed : ∀ {r s id entry s'}, I r s → kind.create id entry s = (none, s') →
    read id entry = none ∧ I r s' ∧ ∀ other, holding r s' other = holding r s other
  created : ∀ {r s id entry file a s'}, I r s → r.contains id = false →
    kind.create id entry s = (some a, s') →
    ∃ config, read id entry = some config ∧
      let r' := r.insert id ⟨file, (kind.activate a s').1⟩
      I r' (kind.activate a s').2 ∧ ∀ other, holding r' (kind.activate a s').2 other =
        if other = id then some ⟨Path.components file, entry, config⟩ else holding r s other

variable {kind read I holding} (faithful : Faithful kind read I holding) (file : String)
  (document : ConfigDocument)

include faithful

theorem Faithful.syncOwned_holdings : ∀ (list : List (String × Owned α)) {y : Syncing σ α},
    (list.Pairwise fun a b => a.1 < b.1) →
    (∀ e ∈ list, y.registry.get? e.1 = some e.2 ∧ Path.same e.2.file file) →
    I y.registry y.surroundings →
    let y' := list.foldl (syncOwned kind document) y
    I y'.registry y'.surroundings ∧ ∀ id, holding y'.registry y'.surroundings id =
      if list.any (·.1 == id) then
        syncAt read id (holding y.registry y.surroundings id) (Path.components file, document)
      else holding y.registry y.surroundings id
  | [], _, _, _, h => ⟨h, fun _ => rfl⟩
  | (id, owned) :: rest, y, sorted, there, h => by
    obtain ⟨above, sorted⟩ := List.pairwise_cons.1 sorted
    obtain ⟨found, own⟩ := there _ (.head _)
    have apart : ∀ e ∈ rest, id ≠ e.1 := fun e mem same =>
      String.lt_irrefl id (same ▸ above e mem)
    -- what the first one comes to
    have step : ∃ y₁, syncOwned kind document y (id, owned) = y₁ ∧
        I y₁.registry y₁.surroundings ∧
        (∀ other, id ≠ other → y₁.registry.get? other = y.registry.get? other) ∧
        ∀ other, holding y₁.registry y₁.surroundings other =
          if other = id then
            syncAt read id (holding y.registry y.surroundings id) (Path.components file, document)
          else holding y.registry y.surroundings other := by
      have place := faithful.places h id
      rw [found, Option.map_some, Option.map_eq_some_iff] at place
      obtain ⟨x, held, place⟩ := place
      have here : x.place = Path.components file := place.trans (by simpa [Path.same] using own)
      refine ⟨_, rfl, ?_⟩
      simp only [syncOwned]
      cases defined : definition? document id with
      | some entry =>
        obtain ⟨h, holdings⟩ := faithful.updated h found entry
        refine ⟨h, fun other differs => by simp [differs], fun other => ?_⟩
        rw [holdings, held, syncAt, if_pos here, defined]
        simp [here]
      | none =>
        obtain ⟨h, holdings⟩ := faithful.retired h found
        refine ⟨h, fun other differs => by simp [differs], fun other => ?_⟩
        rw [holdings, held, syncAt, if_pos here, defined]
        rfl
    obtain ⟨y₁, eq, h₁, same, holdings⟩ := step
    obtain ⟨h', holdings'⟩ := syncOwned_holdings rest sorted (fun e mem =>
      (same e.1 (apart e mem)) ▸ there e (.tail _ mem)) h₁
    rw [List.foldl_cons, eq]
    refine ⟨h', fun other => ?_⟩
    rw [holdings', holdings, List.any_cons]
    by_cases isFirst : other = id
    · subst isFirst
      have notLater : rest.any (·.1 == other) = false := by
        rw [List.any_eq_false]
        exact fun e mem => by simpa using (apart e mem).symm
      simp [notLater]
    · have notFirst : (id == other) = false := by simpa using Ne.symm isFirst
      rw [if_neg isFirst, notFirst, Bool.false_or]

/-- An id that is not held comes to be what the file offers; any other stays. -/
theorem Faithful.syncNew_holdings {y : Syncing σ α} (h : I y.registry y.surroundings) {id : String}
    {entry : ConfigEntry} (defined : definition? document id = some entry) :
    let y' := syncNew kind file y id entry
    I y'.registry y'.surroundings ∧ ∀ other, holding y'.registry y'.surroundings other =
      if other = id then (holding y.registry y.surroundings id).or
        (offered read id (Path.components file, document))
      else holding y.registry y.surroundings other := by
  have places := faithful.places h id
  simp only [syncNew]
  split
  · rename_i known
    obtain ⟨owned, found⟩ := Option.isSome_iff_exists.1 known
    rw [found, Option.map_some, Option.map_eq_some_iff] at places
    obtain ⟨x, held, -⟩ := places
    refine ⟨h, fun other => ?_⟩
    split
    · rename_i same
      rw [same, held, Option.some_or]
    · rfl
  · rename_i unknown
    have new : y.registry.contains id = false := by simpa using unknown
    have absent : holding y.registry y.surroundings id = none := by
      rw [Option.not_isSome_iff_eq_none.1 unknown] at places
      exact Option.map_eq_none_iff.1 places
    split
    · rename_i made
      obtain ⟨unread, h', same⟩ := faithful.failed h made
      refine ⟨h', fun other => ?_⟩
      rw [same, absent, offered, defined, Option.bind_some, unread]
      split
      · rename_i same
        rw [same, absent]
        rfl
      · rfl
    · rename_i made
      obtain ⟨config, read', h', holdings⟩ := faithful.created h new made
      refine ⟨h', fun other => ?_⟩
      rw [holdings, absent, offered, defined, Option.bind_some, read']
      rfl

/-- Of the ids of the file, one that was not owned by it is added. -/
theorem Faithful.syncListed_holdings (isOwned : String → Bool) {y : Syncing σ α}
    (h : I y.registry y.surroundings) (id : String) :
    let y' := syncListed kind file document isOwned y id
    I y'.registry y'.surroundings ∧ ∀ other, holding y'.registry y'.surroundings other =
      if other = id ∧ !isOwned id then (holding y.registry y.surroundings other).or
        (offered read other (Path.components file, document))
      else holding y.registry y.surroundings other := by
  simp only [syncListed]
  cases defined : definition? document id with
  | none =>
    refine ⟨h, fun other => ?_⟩
    rw [Option.elim_none]
    split
    · rename_i same
      simp [offered, same.1, defined]
    · rfl
  | some entry =>
    rw [Option.elim_some]
    split
    · rename_i owned
      exact ⟨h, fun other => by simp [owned]⟩
    · rename_i foreign
      obtain ⟨h', holdings⟩ := faithful.syncNew_holdings file document h defined
      refine ⟨h', fun other => ?_⟩
      rw [holdings]
      by_cases same : other = id
      · subst same
        simp [foreign]
      · simp [same]

theorem Faithful.syncEachListed_holdings (isOwned : String → Bool) :
    ∀ (ids : List String) {y : Syncing σ α},
    I y.registry y.surroundings →
    let y' := ids.foldl (syncListed kind file document isOwned) y
    I y'.registry y'.surroundings ∧ ∀ id, holding y'.registry y'.surroundings id =
      if id ∈ ids ∧ !isOwned id then (holding y.registry y.surroundings id).or
        (offered read id (Path.components file, document))
      else holding y.registry y.surroundings id
  | [], _, h => ⟨h, fun _ => by simp⟩
  | first :: rest, y, h => by
    obtain ⟨h₁, holdings₁⟩ := faithful.syncListed_holdings file document isOwned h first
    obtain ⟨h₂, holdings₂⟩ := syncEachListed_holdings isOwned rest h₁
    rw [List.foldl_cons]
    refine ⟨h₂, fun id => ?_⟩
    rw [holdings₂, holdings₁]
    by_cases isFirst : id = first
    · subst isFirst
      cases isOwned id <;> simp [Option.or_assoc]
    · simp [isFirst]

/-- What is held after a file was taken over: under each id what becomes of what was held. -/
theorem Faithful.sync_holdings {registry : Registry α} {s : σ} (h : I registry s) :
    let y := sync kind registry file document s
    I y.registry y.surroundings ∧ ∀ id, holding y.registry y.surroundings id =
      syncAt read id (holding registry s id) (Path.components file, document) := by
  have sorted : (registry.ownedBy file).Pairwise fun a b => a.1 < b.1 := registry.sorted.filter _
  have listed (e : String × Owned α) : e ∈ registry.ownedBy file ↔
      registry.get? e.1 = some e.2 ∧ Path.same e.2.file file := by
    rw [ownedBy, List.mem_filter]
    exact and_congr_left' (Table.mem_entries_iff registry e.1 e.2)
  obtain ⟨failed, eq⟩ := sync_eq kind file document registry s
  generalize owns : (fun id => (registry.ownedBy file).any (·.1 == id)) = isOwned at eq
  obtain ⟨h₁, holdings₁⟩ := faithful.syncOwned_holdings file document
    (y := ⟨registry, s, { failed }⟩) _ sorted (fun e mem => (listed e).1 mem) h
  obtain ⟨h₂, holdings₂⟩ := faithful.syncEachListed_holdings file document isOwned document.keys
    h₁
  rw [eq]
  refine ⟨h₂, fun id => ?_⟩
  rw [holdings₂, holdings₁]
  have own : (registry.ownedBy file).any (·.1 == id) = isOwned id := congrFun owns id
  rw [own]
  cases owned : isOwned id with
  | true => simp
  | false =>
    have unlisted : id ∉ document.keys →
        offered read id (Path.components file, document) = none := by
      intro absent
      rw [Table.mem_keys, Option.not_isSome_iff_eq_none] at absent
      simp [offered, definition?, absent]
    have added : (if id ∈ document.keys ∧ (!false) = true then (holding registry s id).or
        (offered read id (Path.components file, document)) else holding registry s id) =
        (holding registry s id).or (offered read id (Path.components file, document)) := by
      by_cases mem : id ∈ document.keys
      · simp [mem]
      · simp [mem, unlisted mem]
    refine added.trans ?_
    cases held : holding registry s id with
    | none => rfl
    | some x =>
      have places := faithful.places h id
      rw [held, Option.map_some] at places
      obtain ⟨other, found, place⟩ := Option.map_eq_some_iff.1 places.symm
      have elsewhere : x.place ≠ Path.components file := by
        intro same
        have mine := (listed (id, other)).2 ⟨found, by simpa [Path.same] using place.trans same⟩
        rw [owned] at own
        exact List.any_eq_false.1 own _ mine (by simp)
      rw [syncAt, if_neg elsewhere, Option.some_or]

end Faithful

end Registry
end ScriptHost
