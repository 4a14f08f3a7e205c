import ScriptHost.Proofs.Project.Listing
/-!
# Watched files

A project watches the files that it reads. Which file a path stands for depends on the components
of the path alone, so another spelling of it stands for the same file.

**Respellings.** Behind a slash every piece of a path counts by itself (`Path.components_slash`).
One that says nothing can be added or left out there, and the last slash says nothing either.

**Results.**
* `Path.Respelt.components_eq`: respellings have the same components.
* `FileChange.ofPath?_eq_some_iff`: the paths that stand for a change.
* `FileChange.distinct_eq`: of the changes of one file the first stays.
* `watched_files_are_read`: all of it, and that a directory's names are watched as they are read.
-/
namespace ScriptHost

namespace Path

/-! ## Respellings -/

/-- The components of a path that is cut into these pieces. -/
def ofPieces : List (List Char) → List PathComponent
  | [] :: pieces@(_ :: _) => .root :: pieces.filterMap component?
  | ['.'] :: pieces => .here :: pieces.filterMap component?
  | pieces => pieces.filterMap component?

theorem components_eq (path : String) : components path = ofPieces (cut path.toList) := rfl

/-- What stands behind a slash counts piece by piece. -/
theorem ofPieces_append {front back : List (List Char)} (some : front ≠ []) (more : back ≠ []) :
    ofPieces (front ++ back) = ofPieces (front ++ [[]]) ++ back.filterMap component? := by
  have onward (pieces : List (List Char)) : (pieces ++ back).filterMap component? =
      (pieces ++ [[]]).filterMap component? ++ back.filterMap component? := by
    rw [List.filterMap_append, List.filterMap_append, List.filterMap_cons_none rfl,
      List.filterMap_nil, List.append_nil]
  obtain ⟨first, others, rfl⟩ := List.exists_cons_of_ne_nil some
  obtain ⟨next, rest, rfl⟩ := List.exists_cons_of_ne_nil more
  by_cases root : first = []
  · subst root
    cases others with
    | nil => rfl
    | cons second others => exact congrArg (PathComponent.root :: ·) (onward (second :: others))
  · by_cases here : first = ['.']
    · subst here
      exact congrArg (PathComponent.here :: ·) (onward others)
    · simpa [ofPieces, root, here] using onward (first :: others)

theorem components_slash (path rest : String) : components (path ++ "/" ++ rest) =
    components (path ++ "/") ++ (cut rest.toList).filterMap component? := by
  have text (rest : String) : (path ++ "/" ++ rest).toList = path.toList ++ '/' :: rest.toList := by
    simp
  have last : (path ++ "/").toList = path.toList ++ '/' :: [] := by simp
  rw [components_eq, components_eq, text, last, cut_append, cut_append]
  exact ofPieces_append (cut_ne_nil _) (cut_ne_nil _)

/-- A slash at the end says nothing, unless it is the whole path. -/
theorem components_trailing {path : String} (some : path ≠ "") :
    components (path ++ "/") = components path := by
  have text : (path ++ "/").toList = path.toList ++ '/' :: [] := by simp
  rw [components_eq, components_eq, text, cut_append]
  have onward (pieces : List (List Char)) :
      (pieces ++ [[]]).filterMap component? = pieces.filterMap component? := by
    rw [List.filterMap_append, List.filterMap_cons_none rfl, List.filterMap_nil, List.append_nil]
  obtain ⟨piece, pieces, eq⟩ := List.exists_cons_of_ne_nil (cut_ne_nil path.toList)
  rw [eq]
  by_cases root : piece = []
  · subst root
    cases pieces with
    | nil => exact absurd (String.toList_eq_nil_iff.1 (eq_nil_of_cut eq)) some
    | cons next pieces => exact congrArg (PathComponent.root :: ·) (onward (next :: pieces))
  · by_cases here : piece = ['.']
    · subst here
      exact congrArg (PathComponent.here :: ·) (onward pieces)
    · simpa [ofPieces, cut, root, here] using onward (piece :: pieces)

/-- Texts that are different in slashes in a row, in components `.` inside them and in a slash at
the end. -/
inductive Respelt : String → String → Prop
  | slashes (path rest) : Respelt (path ++ "//" ++ rest) (path ++ "/" ++ rest)
  | here (path rest) : Respelt (path ++ "/./" ++ rest) (path ++ "/" ++ rest)
  | trailing {path} : path ≠ "" → Respelt (path ++ "/") path
  | refl (path) : Respelt path path
  | symm {path other} : Respelt path other → Respelt other path
  | trans {path other last} : Respelt path other → Respelt other last → Respelt path last

theorem Respelt.components_eq {path other : String} (respelt : Respelt path other) :
    components path = components other := by
  induction respelt with
  | slashes path rest =>
    have split : path ++ "//" ++ rest = path ++ "/" ++ ("/" ++ rest) :=
      String.toList_injective (by simp)
    have empty : cut ("/" ++ rest).toList = [] :: cut rest.toList := by
      rw [String.toList_append]
      rfl
    rw [split, components_slash, components_slash path rest, empty, List.filterMap_cons_none rfl]
  | here path rest =>
    have split : path ++ "/./" ++ rest = path ++ "/" ++ ("./" ++ rest) :=
      String.toList_injective (by simp)
    have dot : cut ("./" ++ rest).toList = ['.'] :: cut rest.toList := by
      rw [String.toList_append]
      rfl
    rw [split, components_slash, components_slash path rest, dot, List.filterMap_cons_none rfl]
  | trailing some => exact components_trailing some
  | refl => rfl
  | symm _ ih => exact ih.symm
  | trans _ _ first second => exact first.trans second

end Path

/-- The file that a change is of, whatever the spelling of its path. -/
inductive ChangedFile where
  | handlers (place : List PathComponent)
  | schedules (place : List PathComponent)
  | settings
  deriving DecidableEq

namespace FileChange

def file : FileChange → ChangedFile
  | handlers path => .handlers (Path.components path)
  | schedules path => .schedules (Path.components path)
  | settings => .settings

theorem same_iff {change other : FileChange} : change.same other ↔ change.file = other.file := by
  cases change <;> cases other <;> simp [same, file, Path.same]

/-! ## One path -/

variable {root path : String} {change : FileChange}

/-- A name that the directory loader takes for that of a configuration file, whatever else is in
the directory. -/
def Listed (name : String) : Prop :=
  ∀ entries content, (name, FileNode.file content) ∈ entries → name ∈ Disk.configNames entries

theorem isConfigName_iff {name : String} :
    isConfigName name ↔ ∃ stem, stem ≠ "" ∧ name = stem ++ configExtension := by
  rw [isConfigName, Bool.and_eq_true, decide_eq_true_eq, List.isSuffixOf_iff_suffix]
  constructor
  · rintro ⟨⟨stem, eq⟩, longer⟩
    have whole : name = String.ofList stem ++ configExtension :=
      String.toList_injective (by simp [← eq])
    refine ⟨String.ofList stem, ?_, whole⟩
    intro empty
    rw [whole, empty] at longer
    exact absurd longer (by decide)
  · rintro ⟨stem, some, rfl⟩
    refine ⟨⟨stem.toList, by simp⟩, ?_⟩
    have : stem.length ≠ 0 := by simpa using some
    rw [String.length_append]
    omega

theorem listed_iff {name : String} : Listed name ↔ isConfigName name := by
  constructor
  · intro listed
    obtain ⟨_, _, isConfig⟩ := Disk.mem_configNames.1 (listed [(name, .file ⟨#[]⟩)] ⟨#[]⟩ (.head _))
    exact isConfig
  · intro isConfig entries content mem
    exact Disk.mem_configNames.2 ⟨content, mem, isConfig⟩

/-- The paths of the settings, and those of the files in the two directories whose names are
listed, stand for changes, and no others do. -/
theorem ofPath?_eq_some_iff : ofPath? root path = some change ↔
    (change = settings ∧
      Path.components path = Path.components root ++ [.name settingsFile]) ∨
    (change = handlers path ∧ ∃ name, Listed name ∧
      Path.components path = Path.components root ++ [.name handlersDirectory, .name name]) ∨
    (change = schedules path ∧ ∃ name, Listed name ∧
      Path.components path = Path.components root ++ [.name schedulesDirectory, .name name]) := by
  have apart : schedulesDirectory ≠ handlersDirectory := by decide
  simp only [← Path.behind?_eq_some_iff, listed_iff]
  unfold ofPath?
  generalize Path.behind? (Path.components root) (Path.components path) = behind
  constructor
  · intro h
    split at h
    · rename_i name
      split at h
      · rename_i is
        cases h
        exact .inl ⟨rfl, by rw [is]⟩
      · cases h
    · rename_i directory name
      split at h
      · cases h
      rename_i isConfig
      have isConfig : isConfigName name := by simpa using isConfig
      split at h
      · rename_i is
        cases h
        exact .inr (.inl ⟨rfl, name, isConfig, by rw [is]⟩)
      split at h
      · rename_i is
        cases h
        exact .inr (.inr ⟨rfl, name, isConfig, by rw [is]⟩)
      · cases h
    · cases h
  · rintro (⟨rfl, rfl⟩ | ⟨rfl, name, isConfig, rfl⟩ | ⟨rfl, name, isConfig, rfl⟩)
    · exact if_pos rfl
    · simp [isConfig]
    · simp [isConfig, apart]

theorem file_ofPath?_eq_some_iff {file' : ChangedFile} : (ofPath? root path).map file = some file' ↔
    (file' = .settings ∧
      Path.components path = Path.components root ++ [.name settingsFile]) ∨
    (file' = .handlers (Path.components path) ∧ ∃ name, Listed name ∧
      Path.components path = Path.components root ++ [.name handlersDirectory, .name name]) ∨
    (file' = .schedules (Path.components path) ∧ ∃ name, Listed name ∧
      Path.components path = Path.components root ++ [.name schedulesDirectory, .name name]) := by
  rw [Option.map_eq_some_iff]
  constructor
  · rintro ⟨change, is, rfl⟩
    rcases ofPath?_eq_some_iff.1 is with ⟨rfl, there⟩ | ⟨rfl, there⟩ | ⟨rfl, there⟩
    · exact .inl ⟨rfl, there⟩
    · exact .inr (.inl ⟨rfl, there⟩)
    · exact .inr (.inr ⟨rfl, there⟩)
  · rintro (⟨rfl, there⟩ | ⟨rfl, there⟩ | ⟨rfl, there⟩)
    · exact ⟨_, ofPath?_eq_some_iff.2 (.inl ⟨rfl, there⟩), rfl⟩
    · exact ⟨_, ofPath?_eq_some_iff.2 (.inr (.inl ⟨rfl, there⟩)), rfl⟩
    · exact ⟨_, ofPath?_eq_some_iff.2 (.inr (.inr ⟨rfl, there⟩)), rfl⟩

/-- Which file a path stands for depends on components alone. -/
theorem file_ofPath?_congr {root' path' : String}
    (roots : Path.components root = Path.components root')
    (paths : Path.components path = Path.components path') :
    (ofPath? root path).map file = (ofPath? root' path').map file := by
  refine Option.ext fun file' => ?_
  rw [file_ofPath?_eq_some_iff, file_ofPath?_eq_some_iff, roots, paths]

/-! ## Several paths -/

/-- The changes whose file no change before them is of. -/
def firsts (changes : List FileChange) : List FileChange :=
  (changes.zipIdx.filter fun (change, i) =>
    decide (change.file ∉ (changes.take i).map file)).map Prod.fst

theorem firsts_concat (changes : List FileChange) (change : FileChange) :
    firsts (changes ++ [change]) =
      if change.file ∈ changes.map file then firsts changes else firsts changes ++ [change] := by
  -- the changes before keep the same ones before them
  have before : (changes.zipIdx.filter fun (earlier, i) =>
      decide (earlier.file ∉ ((changes ++ [change]).take i).map file)) =
      changes.zipIdx.filter fun (earlier, i) =>
        decide (earlier.file ∉ (changes.take i).map file) := by
    refine List.filter_congr fun (earlier, i) mem => ?_
    have inside : i < changes.length := by simpa using (List.mem_zipIdx mem).2.1
    simp only [List.take_append_of_le_length (Nat.le_of_lt inside)]
  rw [firsts, List.zipIdx_append, List.filter_append, List.map_append, before]
  by_cases known : change.file ∈ changes.map file
  · rw [if_pos known]
    simp [known, firsts]
  · rw [if_neg known]
    simp [known, firsts]

theorem mem_map_firsts {changes : List FileChange} {file' : ChangedFile} :
    file' ∈ (firsts changes).map file ↔ file' ∈ changes.map file := by
  induction changes using List.reverseRecOn generalizing file' with
  | nil => rfl
  | append_singleton changes change ih =>
    rw [firsts_concat, List.map_append, List.mem_append, List.map_singleton, List.mem_singleton]
    split
    · rename_i known
      constructor
      · exact fun mem => .inl (ih.1 mem)
      · rintro (mem | rfl)
        · exact ih.2 mem
        · exact ih.2 known
    · rw [List.map_append, List.mem_append, ih, List.map_singleton, List.mem_singleton]

theorem distinct_eq (changes : List FileChange) : distinct changes = firsts changes := by
  induction changes using List.reverseRecOn with
  | nil => rfl
  | append_singleton changes change ih =>
    have known : (distinct changes).any change.same ↔ change.file ∈ changes.map file := by
      rw [ih, ← mem_map_firsts, List.any_eq_true, List.mem_map]
      simp only [same_iff, eq_comm (a := change.file)]
    rw [firsts_concat, ← ih]
    unfold distinct
    rw [List.foldl_append]
    exact if_congr known rfl rfl

theorem nodup_firsts (changes : List FileChange) : ((firsts changes).map file).Nodup := by
  induction changes using List.reverseRecOn with
  | nil => exact .nil
  | append_singleton changes change ih =>
    rw [firsts_concat]
    split
    · exact ih
    · rename_i new
      rw [List.map_append, List.map_singleton]
      rw [← List.concat_eq_append]
      exact ih.concat (mem_map_firsts.not.2 new)

end FileChange

open FileChange in
/-- A project watches the files that it reads. A path stands for a file by its components, however
it is spelt: for the settings, or for a file of handlers or schedules with a name that the loader
lists, and for nothing else. What the loader lists it reads at such a path. An event that changes
files gives the answers of its paths in order, of each file the first. -/
theorem watched_files_are_read :
    (∀ root root' path path', Path.components root = Path.components root' →
      Path.components path = Path.components path' →
      (ofPath? root path).map file = (ofPath? root' path').map file) ∧
    (∀ path path', Path.Respelt path path' → Path.components path = Path.components path') ∧
    (∀ root path change, ofPath? root path = some change ↔
      (change = settings ∧
        Path.components path = Path.components root ++ [.name settingsFile]) ∨
      (change = handlers path ∧ ∃ name, Listed name ∧
        Path.components path = Path.components root ++ [.name handlersDirectory, .name name]) ∨
      (change = schedules path ∧ ∃ name, Listed name ∧
        Path.components path = Path.components root ++ [.name schedulesDirectory, .name name])) ∧
    (∀ name, Listed name ↔ ∃ stem, stem ≠ "" ∧ name = stem ++ configExtension) ∧
    (∀ root entries name, Path.IsName name → name ∈ Disk.configNames entries →
      ∀ directory change, (directory, change) ∈
          [(handlersDirectory, handlers), (schedulesDirectory, schedules)] →
        ofPath? root (Path.join (Path.join root directory) name) =
          some (change (Path.join (Path.join root directory) name))) ∧
    (∀ root, ofPath? root (Path.join root settingsFile) = some settings) ∧
    (∀ root paths kind, ofEvent root kind paths =
      if kind = .other then [] else firsts (paths.filterMap (ofPath? root))) ∧
    (∀ changes, ((firsts changes).map file).Nodup ∧
      ∀ file', file' ∈ (firsts changes).map file ↔ file' ∈ changes.map file) := by
  refine ⟨fun _ _ _ _ => file_ofPath?_congr, fun _ _ => Path.Respelt.components_eq,
    fun _ _ _ => ofPath?_eq_some_iff, fun _ => listed_iff.trans isConfigName_iff, ?read, ?settings,
    ?event, fun changes => ⟨nodup_firsts changes, fun _ => mem_map_firsts⟩⟩
  case read =>
    intro root entries name isName mem directory change which
    obtain ⟨content, inside, isConfig⟩ := Disk.mem_configNames.1 mem
    have place (isDirectory : Path.IsName directory) :
        Path.components (Path.join (Path.join root directory) name) =
          Path.components root ++ [.name directory, .name name] := by
      rw [Path.components_join _ isName, Path.components_join _ isDirectory, List.append_assoc]
      rfl
    refine ofPath?_eq_some_iff.2 (.inr ?_)
    rcases List.mem_pair.1 which with eq | eq
    · cases eq
      exact .inl ⟨rfl, name, listed_iff.2 isConfig, place (by decide)⟩
    · cases eq
      exact .inr ⟨rfl, name, listed_iff.2 isConfig, place (by decide)⟩
  case settings =>
    exact fun root => ofPath?_eq_some_iff.2 (.inl ⟨rfl, Path.components_join root (by decide)⟩)
  case event =>
    intro root paths kind
    cases kind with
    | other => rfl
    | created | modified | removed => exact distinct_eq _

end ScriptHost
