import Mathlib.Data.List.Induction
import Mathlib.Data.List.Nodup
import Mathlib.Data.String.Basic
import ScriptHost.Proofs.Project.Failing
/-!
# What a directory lists

In a proper tree the entries of a directory have names of their own. A file that lies right in the
directory that a path leads to is found under the path and its name, and its one text is the text
of its place. So the documents of a directory are those of its configuration files, in the order of
their paths.

What a program reads is told of a `ProperTree`, which cannot have two entries of one name.

**Results.**
* `ProperTree.find_listed`: a file of a directory is found by its name.
* `gives_prepare`: what the documents of a directory are, if all its files are documents.
-/
namespace ScriptHost

namespace Path

theorem IsName.ne_empty {name : String} (isName : IsName name) : name ≠ "" := by
  rintro rfl
  have := isName.2
  cases this

theorem IsName.relative {name : String} (isName : IsName name) : name.startsWith "/" = false := by
  rw [Bool.eq_false_iff]
  intro starts
  exact isName.1 ((String.startsWith_string_iff.1 starts).subset (.head _))

end Path

namespace FileTree

variable {tree : FileTree} {here place home : List String} {name path : String}
  {entries : List (String × FileNode)} {content : ByteArray}

/-! ## Texts of places -/

theorem placeText_cons_cons (name next : String) (rest : List String) :
    placeText (name :: next :: rest) = name ++ "/" ++ placeText (next :: rest) :=
  String.intercalate_cons_cons

@[simp] theorem placeText_singleton (name : String) : placeText [name] = name :=
  String.intercalate_singleton

theorem placeText_concat (name last : String) (rest : List String) :
    placeText (name :: rest ++ [last]) = placeText (name :: rest) ++ "/" ++ last := by
  induction rest generalizing name with
  | nil => exact placeText_cons_cons name last []
  | cons next rest ih =>
    rw [List.cons_append, List.cons_append, placeText_cons_cons, ← List.cons_append, ih,
      placeText_cons_cons]
    simp only [String.append_assoc]

theorem placeText_ne_empty (isName : Path.IsName name) (rest : List String) :
    placeText (name :: rest) ≠ "" := by
  have some := isName.ne_empty
  cases rest with
  | nil => rwa [placeText_singleton]
  | cons next rest =>
    rw [placeText_cons_cons]
    intro empty
    simp at empty

theorem placeText_join (names : ∀ name ∈ place, Path.IsName name) (last : Path.IsName name) :
    placeText (place ++ [name]) = Path.join (placeText place) name := by
  cases place with
  | nil => rfl
  | cons first rest =>
    have notEmpty : (placeText (first :: rest)).isEmpty = false := by
      simpa using placeText_ne_empty (names first (.head _)) rest
    rw [placeText_concat, Path.join, notEmpty, last.relative]
    rfl

theorem components_placeText (names : ∀ name ∈ place, Path.IsName name) :
    Path.components (placeText place) = place.map .name := by
  induction place using List.reverseRecOn with
  | nil => rfl
  | append_singleton first last ih =>
    have isName := names last (by simp)
    have before : ∀ name ∈ first, Path.IsName name := fun name mem => names name (by simp [mem])
    rw [placeText_join before isName, Path.components_join _ isName, ih before, List.map_append]
    rfl

/-- Of two files in one directory, that with the smaller name has the smaller path. -/
theorem placeText_lt {first second : String} (home : List String) (lt : first < second) :
    placeText (home ++ [first]) < placeText (home ++ [second]) := by
  cases home with
  | nil => exact lt
  | cons name rest =>
    rw [placeText_concat, placeText_concat, String.lt_iff_toList_lt]
    simp only [String.toList_append]
    exact List.append_left_lt (String.lt_iff_toList_lt.1 lt)

/-! ## Proper trees -/

/-- The entries of a directory have names, each its own. -/
def Proper (tree : FileTree) : Prop :=
  ∀ place entries, tree.get? place = some (.directory entries) →
    (entries.map (·.1)).Nodup ∧ ∀ name ∈ entries.map (·.1), Path.IsName name

theorem Proper.file (content : ByteArray) : Proper (.file content) := by
  intro place entries stands
  cases place <;> cases stands

theorem Proper.directory (nodup : (entries.map (·.1)).Nodup)
    (names : ∀ name ∈ entries.map (·.1), Path.IsName name)
    (within : ∀ e ∈ entries, Proper e.2) : Proper (.directory entries) := by
  intro place inner stands
  cases place with
  | nil =>
    cases stands
    exact ⟨nodup, names⟩
  | cons name rest =>
    rw [get?_cons] at stands
    obtain ⟨node, found, stands⟩ := Option.bind_eq_some_iff.1 stands
    exact within _ (Table.mem_of_lookup_eq_some found) rest inner stands

theorem lookup_of_mem {node : FileNode} (nodup : (entries.map (·.1)).Nodup)
    (mem : (name, node) ∈ entries) : Table.lookup name entries = some node := by
  induction entries with
  | nil => cases mem
  | cons entry rest ih =>
    obtain ⟨other, first⟩ := entry
    obtain ⟨absent, nodup⟩ := List.nodup_cons.1 nodup
    rw [Table.lookup]
    rcases List.mem_cons.1 mem with same | later
    · cases same
      rw [if_pos rfl]
    · have apart : other ≠ name := by
        rintro rfl
        exact absent (List.mem_map.2 ⟨_, later, rfl⟩)
      rw [if_neg apart, ih nodup later]

theorem mem_of_lookup {node : FileNode} (found : Table.lookup name entries = some node) :
    name ∈ entries.map (·.1) :=
  List.mem_map_of_mem (Table.mem_of_lookup_eq_some found)

/-! ## Ways -/

theorem walkUntilLink_trans {first rest : List PathComponent}
    {follow : List PathComponent → Except PathProblem (List String)}
    (led : walkUntilLink tree false follow here first = .ok home) (stands : tree.IsDirectory home)
    (onward : walkUntilLink tree false follow home rest = .ok place)
    (follows : ∀ components, follow components = .ok home →
      follow (components ++ rest) = .ok place) :
    walkUntilLink tree false follow here (first ++ rest) = .ok place := by
  induction first generalizing here with
  | nil =>
    cases led
    exact onward
  | cons component first ih =>
    cases component with
    | root => exact ih led
    | here => exact ih led
    | parent => exact ih led
    | name name =>
      rw [walkUntilLink] at led
      rw [List.cons_append, walkUntilLink]
      cases found : tree.get? (here ++ [name]) with
      | none => simp [found] at led
      | some node =>
        rw [found] at led
        cases node with
        | directory entries => exact ih led
        | file content =>
          -- a file is no directory to go on from
          simp only at led
          split at led
          · cases led
            obtain ⟨entries, there⟩ := isDirectory_iff.1 stands
            cases found.symm.trans there
          · cases led
        | link target =>
          simp only [← List.append_assoc]
          exact follows _ led

/-- A way to a directory can be gone on with, if what follows leads on without links. -/
theorem walk_trans {first rest : List PathComponent} {links : Nat}
    (led : walk tree false links here first = .ok home) (stands : tree.IsDirectory home)
    (onward : ∀ links, walk tree false links home rest = .ok place) :
    walk tree false links here (first ++ rest) = .ok place := by
  induction links generalizing here first with
  | zero => exact walkUntilLink_trans led stands (onward 0) fun _ eq => by cases eq
  | succ links ih => exact walkUntilLink_trans led stands (onward (links + 1)) fun _ led => ih led

theorem walk_names (there : tree.get? (here ++ place) ≠ none)
    (notLink : ∀ target, tree.get? (here ++ place) ≠ some (.link target)) (links : Nat) :
    walk tree false links here (place.map .name) = .ok (here ++ place) := by
  induction place generalizing here with
  | nil => rw [List.map_nil, walk_nil, List.append_nil]
  | cons name rest ih =>
    rw [List.append_cons] at there notLink ⊢
    rw [List.map_cons, walk_name]
    by_cases last : rest = []
    · subst last
      rw [List.append_nil] at there notLink ⊢
      obtain ⟨node, found⟩ := Option.ne_none_iff_exists'.1 there
      rw [found]
      cases node with
      | directory entries => simp
      | file content => simp
      | link target => exact absurd found (notLink target)
    · obtain ⟨entries, stands⟩ := isDirectory_iff.1 (IsDirectory.of_append last there)
      rw [stands]
      exact ih there notLink

end FileTree

/-! ## Files of a proper tree -/

/-- A tree whose directories have entries with names, each its own. -/
structure ProperTree where
  tree : FileTree
  proper : tree.Proper

namespace ProperTree

open FileTree

variable {disk : ProperTree} {place home : List String} {name path : String}
  {entries : List (String × FileNode)}

theorem nodup (stands : disk.tree.get? home = some (.directory entries)) :
    (entries.map (·.1)).Nodup :=
  (disk.proper home entries stands).1

theorem get?_of_mem {node : FileNode} (stands : disk.tree.get? home = some (.directory entries))
    (mem : (name, node) ∈ entries) : disk.tree.get? (home ++ [name]) = some node := by
  rw [get?_append, stands, Option.bind_some, get?_cons]
  simp only [lookup_of_mem (nodup stands) mem, Option.bind_some, get?_nil]

theorem names (there : disk.tree.get? place ≠ none) : ∀ name ∈ place, Path.IsName name := by
  induction place using List.reverseRecOn with
  | nil => simp
  | append_singleton first last ih =>
    obtain ⟨entries, stands⟩ :=
      isDirectory_iff.1 (IsDirectory.of_append (List.cons_ne_nil last []) there)
    have before := ih (by simp [stands])
    intro name mem
    rcases List.mem_append.1 mem with mem | mem
    · exact before name mem
    · cases List.mem_singleton.1 mem
      rw [get?_append, stands, Option.bind_some, get?_cons] at there
      obtain ⟨node, found⟩ := Option.ne_none_iff_exists'.1 there
      obtain ⟨node, found, -⟩ := Option.bind_eq_some_iff.1 found
      exact (disk.proper first entries stands).2 _ (mem_of_lookup found)

/-- A file that lies right in the directory that a path leads to is found under the path and its
name. -/
theorem find_listed {content : ByteArray}
    (led : disk.tree.resolve (Path.components path) = .ok home)
    (stands : disk.tree.get? home = some (.directory entries))
    (mem : (name, .file content) ∈ entries) :
    disk.tree.normalize (Path.join path name) = placeText (home ++ [name]) ∧
      disk.tree.find (placeText (home ++ [name])) = .ok (.file content) := by
  have there : disk.tree.get? (home ++ [name]) = some (.file content) := get?_of_mem stands mem
  have present : disk.tree.get? (home ++ [name]) ≠ none := by simp [there]
  have notLink (target : String) : disk.tree.get? (home ++ [name]) ≠ some (.link target) := by
    simp [there]
  have isName := names present name (by simp)
  have onward (links : Nat) :
      walk disk.tree false links home [.name name] = .ok (home ++ [name]) := by
    rw [walk_name, there]
    rfl
  have reached : disk.tree.resolve (Path.components (Path.join path name)) =
      .ok (home ++ [name]) := by
    rw [Path.components_join path isName]
    exact walk_trans led (isDirectory_iff.2 ⟨entries, stands⟩) onward
  have again : disk.tree.resolve (Path.components (placeText (home ++ [name]))) =
      .ok (home ++ [name]) := by
    rw [components_placeText (names present)]
    exact @walk_names disk.tree [] _ present notLink maxLinks
  exact ⟨by rw [FileTree.normalize, reached], find_eq_ok.2 ⟨_, again, there⟩⟩

end ProperTree

namespace FileNode

def document? : FileNode → Option ConfigDocument
  | .file content => (String.fromUTF8? content).bind Toml.read?
  | _ => none

end FileNode

namespace Disk

variable {disk : ProperTree} {path name : String} {home : List String}
  {entries : List (String × FileNode)} {documents : List (String × ConfigDocument)}

/-! ## Documents of a directory -/

/-- The documents of a directory whose entries these are: one for each configuration file, under
its path, in the order of the paths. -/
structure Documents (home : List String) (entries : List (String × FileNode))
    (documents : List (String × ConfigDocument)) : Prop where
  ascending : documents.Pairwise fun a b => a.1 < b.1
  mem_iff : ∀ file document, (file, document) ∈ documents ↔
    ∃ name content, (name, FileNode.file content) ∈ entries ∧ isConfigName name ∧
      file = FileTree.placeText (home ++ [name]) ∧ (FileNode.file content).document? = some document

/-- The name of an entry that is a configuration file. -/
def configName? : String × FileNode → Option String
  | (name, .file _) => if isConfigName name then some name else none
  | _ => none

theorem configNames_eq (entries : List (String × FileNode)) : configNames entries =
    (entries.filterMap configName?).mergeSort fun first second => first ≤ second := rfl

theorem configName?_eq_some {entry : String × FileNode} : configName? entry = some name ↔
    isConfigName name ∧ ∃ content, entry = (name, .file content) := by
  obtain ⟨other, node⟩ := entry
  cases node with
  | file content =>
    rw [configName?]
    constructor
    · intro eq
      split at eq
      · rename_i isConfig
        cases eq
        exact ⟨isConfig, content, rfl⟩
      · cases eq
    · rintro ⟨isConfig, _, ⟨⟩⟩
      exact if_pos isConfig
  | link | directory => simp [configName?]

theorem mem_configNames : name ∈ configNames entries ↔
    ∃ content, (name, FileNode.file content) ∈ entries ∧ isConfigName name := by
  rw [configNames_eq, List.mem_mergeSort, List.mem_filterMap]
  constructor
  · rintro ⟨entry, mem, eq⟩
    obtain ⟨isConfig, content, rfl⟩ := configName?_eq_some.1 eq
    exact ⟨content, mem, isConfig⟩
  · rintro ⟨content, mem, isConfig⟩
    exact ⟨_, mem, configName?_eq_some.2 ⟨isConfig, content, rfl⟩⟩

theorem configNames_ascending (nodup : (entries.map (·.1)).Nodup) :
    (configNames entries).Pairwise (· < ·) := by
  have apart : (entries.filterMap configName?).Nodup := by
    refine List.pairwise_filterMap.2 ?_
    refine (List.pairwise_map.1 nodup).imp fun ne first is second is' => ?_
    obtain ⟨-, content, rfl⟩ := configName?_eq_some.1 is
    obtain ⟨-, content', rfl⟩ := configName?_eq_some.1 is'
    exact ne
  have apart : (configNames entries).Nodup := by
    rw [configNames_eq]
    exact (List.mergeSort_perm _ _).nodup_iff.2 apart
  have sorted :
      (configNames entries).Pairwise fun first second => decide (first ≤ second) = true := by
    rw [configNames_eq]
    refine List.pairwise_mergeSort (fun a b c first second => ?_) (fun a b => ?_) _
    · exact decide_eq_true (String.le_trans (of_decide_eq_true first) (of_decide_eq_true second))
    · simpa using String.le_total a b
  exact (sorted.and apart).imp fun ⟨le, ne⟩ => Std.lt_of_le_of_ne (of_decide_eq_true le) ne

/-- Where every element comes to something, the row does. -/
theorem mapM_reduceOption {α β : Type} {f : α → Option (Option β)} {list : List α}
    (each : ∀ a ∈ list, ∃ b, f a = some (some b)) :
    (list.mapM f).map List.reduceOption = some (list.filterMap fun a => (f a).join) := by
  induction list with
  | nil => rfl
  | cons a rest ih =>
    obtain ⟨⟨b, eq⟩, later⟩ := List.forall_mem_cons.1 each
    obtain ⟨results, made, is⟩ := Option.map_eq_some_iff.1 (ih later)
    rw [List.mapM_cons, eq, made, List.filterMap_cons_some (by rw [eq]; rfl), ← is]
    rfl

theorem listed?_eq (led : disk.tree.resolve (Path.components path) = .ok home)
    (stands : disk.tree.get? home = some (.directory entries)) {content : ByteArray}
    (mem : (name, .file content) ∈ entries) {document : ConfigDocument}
    (is : (FileNode.file content).document? = some document) :
    listed? disk.tree path name = some (some (FileTree.placeText (home ++ [name]), document)) := by
  obtain ⟨text, found⟩ := ProperTree.find_listed led stands mem
  obtain ⟨content, utf8, read⟩ := Option.bind_eq_some_iff.1 is
  rw [listed?, text, found, documentOf?, textOf?, utf8]
  simp only [Option.map_some, Option.bind_some, Option.elim_some, read]

theorem documentsOf?_eq (led : disk.tree.resolve (Path.components path) = .ok home)
    (stands : disk.tree.get? home = some (.directory entries))
    (parse : ∀ name content, (name, FileNode.file content) ∈ entries → isConfigName name →
      (FileNode.file content).document?.isSome) :
    ∃ documents, Documents home entries documents ∧
      documentsOf? disk.tree path = some documents := by
  have found := FileTree.find_eq_ok.2 ⟨home, led, stands⟩
  have each : ∀ name ∈ configNames entries, ∃ content document,
      (name, FileNode.file content) ∈ entries ∧
      (FileNode.file content).document? = some document ∧
      listed? disk.tree path name =
        some (some (FileTree.placeText (home ++ [name]), document)) := by
    intro name listed
    obtain ⟨content, mem, isConfig⟩ := mem_configNames.1 listed
    obtain ⟨document, is⟩ := Option.isSome_iff_exists.1 (parse name content mem isConfig)
    exact ⟨content, document, mem, is, listed?_eq led stands mem is⟩
  refine ⟨(configNames entries).filterMap fun name => (listed? disk.tree path name).join,
    ⟨?_, fun file document => ?_⟩, ?_⟩
  · have ascending := configNames_ascending (ProperTree.nodup stands)
    refine List.pairwise_filterMap.2 ?_
    refine ascending.imp_of_mem fun {first second} mem mem' lt a is b is' => ?_
    obtain ⟨_, _, -, -, eq⟩ := each first mem
    obtain ⟨_, _, -, -, eq'⟩ := each second mem'
    rw [eq, Option.join_some, Option.some.injEq] at is
    rw [eq', Option.join_some, Option.some.injEq] at is'
    rw [← is, ← is']
    exact FileTree.placeText_lt home lt
  · rw [List.mem_filterMap]
    constructor
    · rintro ⟨name, listed, is⟩
      obtain ⟨content, document, mem, isDocument, eq⟩ := each name listed
      obtain ⟨-, -, isConfig⟩ := mem_configNames.1 listed
      rw [eq, Option.join_some, Option.some.injEq, Prod.mk.injEq] at is
      obtain ⟨rfl, rfl⟩ := is
      exact ⟨name, content, mem, isConfig, rfl, isDocument⟩
    · rintro ⟨name, content, mem, isConfig, rfl, isDocument⟩
      refine ⟨name, mem_configNames.2 ⟨content, mem, isConfig⟩, ?_⟩
      rw [listed?_eq led stands mem isDocument]
      rfl
  · rw [documentsOf?, found]
    refine mapM_reduceOption fun name listed => ?_
    obtain ⟨content, document, -, -, eq⟩ := each name listed
    exact ⟨_, eq⟩

/-- If all configuration files of a directory are documents, these are what is read. -/
theorem gives_prepare (disk : ProperTree)
    (led : disk.tree.resolve (Path.components path) = .ok home)
    (stands : disk.tree.get? home = some (.directory entries))
    (parse : ∀ name content, (name, FileNode.file content) ∈ entries → isConfigName name →
      (FileNode.file content).document?.isSome) :
    ∃ documents, Documents home entries documents ∧
      Gives (prepare path) disk.tree (some documents) := by
  have found := FileTree.find_eq_ok.2 ⟨home, led, stands⟩
  obtain ⟨documents, are, read⟩ := documentsOf?_eq led stands parse
  have all := (gives_ensureDirectory found).bind fun _ => read ▸ gives_readDirectory path disk.tree
  exact ⟨documents, are, all⟩

end Disk
end ScriptHost
