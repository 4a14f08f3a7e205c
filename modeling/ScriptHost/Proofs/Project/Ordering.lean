import ScriptHost.Proofs.Project.Listing
/-!
# Definitions in the order of their files

From a proper tree files are read in the order of their paths. A directory that is missing is made
before, and that leaves the tree proper. So the definitions that a load accepts come in the order of
their files, and those of one file in the order of their ids.

**Results.**
* `Makes.proper`: making directories leaves a tree proper.
* `documents_of_prepare`: what is read from a directory are its documents, in the order of their
  paths.
* `accepted_ascending`, `nodup_accepted`: the order of the accepted definitions, one for each id.
-/
namespace ScriptHost

namespace Path

theorem slashless_of_mem_cut {path piece : List Char} (mem : piece ∈ cut path) : '/' ∉ piece := by
  induction path generalizing piece with
  | nil =>
    rw [List.mem_singleton.1 mem]
    exact List.not_mem_nil
  | cons c rest ih =>
    by_cases slash : c = '/'
    · rw [slash, cut_slash] at mem
      rcases List.mem_cons.1 mem with rfl | mem
      · exact List.not_mem_nil
      · exact ih mem
    · obtain ⟨first, pieces, eq⟩ := List.exists_cons_of_ne_nil (cut_ne_nil rest)
      rw [cut_cons slash eq] at mem
      rw [eq] at ih
      rcases List.mem_cons.1 mem with rfl | mem
      · rw [List.mem_cons, not_or]
        exact ⟨Ne.symm slash, ih (.head _)⟩
      · exact ih (.tail _ mem)

theorem isName_of_component? {piece : List Char} {name : String} (slashless : '/' ∉ piece)
    (is : component? piece = some (.name name)) : IsName name := by
  have same : name.toList = piece := by
    unfold component? at is
    split at is
    · cases is
    · split at is
      · cases is
      · cases is
        exact String.toList_ofList
  rw [IsName, same]
  exact ⟨slashless, is⟩

theorem isName_of_mem_components {path name : String} (mem : .name name ∈ components path) :
    IsName name := by
  have within {pieces : List (List Char)} (part : ∀ piece ∈ pieces, piece ∈ cut path.toList)
      (mem : .name name ∈ pieces.filterMap component?) : IsName name := by
    obtain ⟨piece, inside, is⟩ := List.mem_filterMap.1 mem
    exact isName_of_component? (slashless_of_mem_cut (part piece inside)) is
  unfold components at mem
  split at mem
  · next eq =>
    refine within (fun piece inside => ?_) ((List.mem_cons.1 mem).resolve_left nofun)
    rw [eq]
    exact .tail _ inside
  · next eq =>
    refine within (fun piece inside => ?_) ((List.mem_cons.1 mem).resolve_left nofun)
    rw [eq]
    exact .tail _ inside
  · exact within (fun _ inside => inside) mem

end Path

namespace FileTree

variable {tree after : FileTree} {here there : List String} {name : String}
  {entries : List (String × FileNode)}

/-! ## Making directories -/

theorem Proper.within (proper : Proper (.directory entries)) : ∀ e ∈ entries, Proper e.2 := by
  intro e mem place inner stands
  obtain ⟨nodup, -⟩ := proper [] entries rfl
  refine proper (e.1 :: place) inner ?_
  rw [get?_cons]
  simp only [lookup_of_mem nodup mem, Option.bind_some, stands]

theorem Proper.put (isName : Path.IsName name) (home : List String) (proper : tree.Proper) :
    (tree.put (home ++ [name]) (some (.directory []))).Proper := by
  have nothing : Proper (.directory []) := .directory .nil nofun nofun
  induction home generalizing tree with
  | nil =>
    cases tree with
    | file | link => rwa [put_leaf fun _ eq => by cases eq]
    | directory entries =>
      obtain ⟨nodup, names⟩ := proper [] entries rfl
      have others : ((entries.filter (·.1 != name)).map (·.1)).Sublist (entries.map (·.1)) :=
        List.filter_sublist.map _
      refine .directory ?_ (fun other mem => ?_) fun e mem => ?_
      · rw [putEntry, List.map_append, List.nodup_append]
        refine ⟨nodup.sublist others, List.nodup_singleton _, ?_⟩
        intro other mem _ mem' same
        obtain ⟨e, kept, rfl⟩ := List.mem_map.1 mem
        rw [List.mem_singleton.1 mem'] at same
        simpa [same] using (List.mem_filter.1 kept).2
      · rw [putEntry, List.map_append] at mem
        rcases List.mem_append.1 mem with mem | mem
        · exact names other (others.subset mem)
        · rw [List.mem_singleton.1 mem]
          exact isName
      · rcases List.mem_append.1 mem with mem | mem
        · exact proper.within e (List.mem_filter.1 mem).1
        · rw [List.mem_singleton.1 mem]
          exact nothing
  | cons first rest ih =>
    cases tree with
    | file | link => rwa [put_leaf fun _ eq => by cases eq]
    | directory entries =>
      obtain ⟨nodup, names⟩ := proper [] entries rfl
      rw [List.cons_append, put_directory (by simp)]
      refine .directory ?_ ?_ fun e mem => ?_
      · rwa [List.map_map]
      · rwa [List.map_map]
      · obtain ⟨old, there, rfl⟩ := List.mem_map.1 mem
        simp only
        split
        · exact ih (proper.within old there)
        · exact proper.within old there

theorem Proper.makeDirectories {components : List PathComponent}
    (areNames : ∀ name, .name name ∈ components → Path.IsName name) (proper : tree.Proper)
    (made : makeDirectories tree here components = some (after, there)) : after.Proper := by
  induction components generalizing tree here with
  | nil =>
    cases made
    exact proper
  | cons component rest ih =>
    have others := fun name mem => areNames name (.tail _ mem)
    cases component with
    | root | here | parent => exact ih others proper made
    | name name =>
      rw [FileTree.makeDirectories] at made
      cases found : tree.get? (here ++ [name]) with
      | none =>
        simp only [found] at made
        exact ih others (proper.put (areNames name (.head _)) here) made
      | some node =>
        simp only [found] at made
        split at made
        · cases made
        · split at made
          · exact ih others proper made
          · cases made

end FileTree

namespace Disk

variable {disk after : FileTree} {path : String} {documents : List (String × ConfigDocument)}

theorem Makes.proper {paths : List String} (makes : Makes paths disk after)
    (proper : disk.Proper) : after.Proper := by
  induction makes with
  | nothing => exact proper
  | skip _ ih => exact ih proper
  | make _ isMade _ ih =>
    obtain ⟨⟨_, there⟩, made, rfl⟩ := Option.map_eq_some_iff.1 isMade
    exact ih (proper.makeDirectories (fun _ => Path.isName_of_mem_components) made)

/-! ## Reading directories -/

theorem documents_of_documentsOf? {disk : ProperTree}
    (read : documentsOf? disk.tree path = some documents) :
    ∃ home entries, Documents home entries documents := by
  cases found : disk.tree.find path with
  | error problem => rw [documentsOf?, found] at read; cases read
  | ok node =>
    cases node with
    | file | link => rw [documentsOf?, found] at read; cases read
    | directory entries =>
      obtain ⟨home, led, stands⟩ := FileTree.find_eq_ok.1 found
      have parse : ∀ name content, (name, FileNode.file content) ∈ entries → isConfigName name →
          (FileNode.file content).document?.isSome := by
        intro name content mem isConfig
        by_contra unread
        obtain ⟨text, there⟩ := ProperTree.find_listed led stands mem
        have nothing : listed? disk.tree path name = none := by
          rw [listed?, text, there, documentOf?, textOf?]
          rw [Option.not_isSome_iff_eq_none, FileNode.document?] at unread
          cases utf8 : String.fromUTF8? content with
          | none => rfl
          | some text =>
            rw [utf8, Option.bind_some] at unread
            simp [unread]
        have listed := mem_configNames.2 ⟨content, mem, isConfig⟩
        cases read.symm.trans (documentsOf?_eq_none found listed nothing)
      obtain ⟨_, are, again⟩ := documentsOf?_eq led stands parse
      cases read.symm.trans again
      exact ⟨home, entries, are⟩

/-- What is read from a directory, made if it is missing, are its documents. -/
theorem documents_of_prepare (disk : ProperTree)
    (read : (prepare path).outcome? disk.tree = some documents) :
    ∃ home entries, Documents home entries documents := by
  obtain ⟨_, tree, ensured, read⟩ := outcome?_bind_eq_some.1 read
  have makes := touches_ensureDirectory path disk.tree
  rw [ensured] at makes
  let made : ProperTree := ⟨tree, Makes.proper makes disk.proper⟩
  have listed : documentsOf? made.tree path = some documents :=
    (gives_readDirectory path tree).outcome.symm.trans read
  exact documents_of_documentsOf? listed

end Disk

/-! ## Definitions -/

/-- A definition stands before another: in an earlier file, or in the same under a smaller id. -/
def Definition.Before (x y : Definition) : Prop := x.file < y.file ∨ x.file = y.file ∧ x.id < y.id

namespace Registry

variable {V : Type} {read : String → ConfigEntry → Option V}

theorem definitionOf?_place {file : String} {value : String × Toml.Value} {x : Definition}
    (is : definitionOf? file value = some x) : x.file = file ∧ x.id = value.1 := by
  unfold definitionOf? at is
  split at is
  · cases is
  · split at is
    · cases is
    · cases is
      exact ⟨rfl, rfl⟩

theorem definitions_ascending {files : List (String × ConfigDocument)}
    (ascending : files.Pairwise fun a b => a.1 < b.1) :
    (definitions files).Pairwise Definition.Before := by
  rw [definitions, List.pairwise_flatMap]
  refine ⟨fun file _ => ?_, ascending.imp fun {a b} lt x mem y mem' => .inl ?_⟩
  · refine List.pairwise_filterMap.2 (file.2.sorted.imp fun {a b} lt x is y is' => .inr ?_)
    obtain ⟨home, id⟩ := definitionOf?_place is
    obtain ⟨home', id'⟩ := definitionOf?_place is'
    rw [home, home', id, id']
    exact ⟨rfl, lt⟩
  · obtain ⟨_, -, is⟩ := List.mem_filterMap.1 mem
    obtain ⟨_, -, is'⟩ := List.mem_filterMap.1 mem'
    rw [(definitionOf?_place is).1, (definitionOf?_place is').1]
    exact lt

/-- What is accepted are some of the definitions, in their order, and one at most for each id. -/
theorem accepted_sublist (read : String → ConfigEntry → Option V) (list : List Definition)
    (taken : List (Definition × V)) :
    ∃ more, list.foldl (accept read) taken = taken ++ more ∧ (more.map (·.1)).Sublist list ∧
      ((taken.map (·.1.id)).Nodup → ((taken ++ more).map (·.1.id)).Nodup) := by
  induction list generalizing taken with
  | nil => exact ⟨[], by simp, .slnil, by simp⟩
  | cons x rest ih =>
    rw [List.foldl_cons]
    obtain same | ⟨value, new, eq⟩ : accept read taken x = taken ∨
        ∃ value, isTaken taken x.id = false ∧ accept read taken x = taken ++ [(x, value)] := by
      unfold accept
      split
      · exact .inl rfl
      · next new =>
        cases read x.id x.entry with
        | none => exact .inl rfl
        | some value => exact .inr ⟨value, by simpa using new, rfl⟩
    · rw [same]
      obtain ⟨more, eq, sublist, nodup⟩ := ih taken
      exact ⟨more, eq, sublist.cons x, nodup⟩
    · rw [eq]
      obtain ⟨more, eq, sublist, nodup⟩ := ih (taken ++ [(x, value)])
      refine ⟨(x, value) :: more, by rw [eq]; simp, sublist.cons_cons x, fun apart => ?_⟩
      rw [List.append_cons]
      refine nodup ?_
      rw [List.map_append, List.nodup_append]
      refine ⟨apart, List.nodup_singleton _, ?_⟩
      intro id mem _ mem' same
      obtain ⟨y, there, rfl⟩ := List.mem_map.1 mem
      rw [List.mem_singleton.1 mem'] at same
      rw [isTaken, List.any_eq_false] at new
      exact new y there (by simpa using same)

theorem accepted_ascending {files : List (String × ConfigDocument)}
    (ascending : files.Pairwise fun a b => a.1 < b.1) :
    (accepted read files).Pairwise fun x y => x.1.Before y.1 := by
  obtain ⟨more, eq, sublist, -⟩ := accepted_sublist read (definitions files) []
  rw [accepted, eq]
  exact List.pairwise_map.1 ((definitions_ascending ascending).sublist sublist)

theorem nodup_accepted (files : List (String × ConfigDocument)) :
    ((accepted read files).map (·.1.id)).Nodup := by
  obtain ⟨more, eq, -, nodup⟩ := accepted_sublist read (definitions files) []
  rw [accepted, eq]
  exact nodup .nil

end Registry
end ScriptHost
