import Mathlib.Data.List.Basic
import ScriptHost.Files.Tree
/-!
# Making directories

A tree in which directories were made has at every place what it had there, or a directory where
nothing was. What a path led to it still leads to, so making a directory is of no consequence to
anything that could be found before.

**Results.**
* `gains_makeDirectory?`: making a directory only adds directories.
* `Gains.find`: what was found is found again.
* `gains_join`: inside a directory that is there, only the one that was asked for is added.
-/
namespace ScriptHost

namespace Path

/-! ## Names in directories -/

/-- A text that is one component of a path, and a name. -/
def IsName (name : String) : Prop :=
  '/' ∉ name.toList ∧ component? name.toList = some (.name name)

instance (name : String) : Decidable (IsName name) := inferInstanceAs (Decidable (_ ∧ _))

theorem cut_slash (rest : List Char) : cut ('/' :: rest) = [] :: cut rest := rfl

theorem cut_cons {c : Char} {rest piece : List Char} {pieces : List (List Char)} (apart : c ≠ '/')
    (eq : cut rest = piece :: pieces) : cut (c :: rest) = (c :: piece) :: pieces := by
  rw [cut, List.foldr_cons, ← cut, eq]
  split <;> simp_all

theorem cut_ne_nil (path : List Char) : cut path ≠ [] := by
  induction path with
  | nil => exact List.cons_ne_nil _ _
  | cons c rest ih =>
    obtain ⟨piece, pieces, eq⟩ := List.exists_cons_of_ne_nil ih
    by_cases slash : c = '/'
    · rw [slash, cut_slash]
      exact List.cons_ne_nil _ _
    · rw [cut_cons slash eq]
      exact List.cons_ne_nil _ _

theorem cut_append (first rest : List Char) :
    cut (first ++ '/' :: rest) = cut first ++ cut rest := by
  induction first with
  | nil => rfl
  | cons c first ih =>
    obtain ⟨piece, pieces, eq⟩ := List.exists_cons_of_ne_nil (cut_ne_nil first)
    rw [eq, List.cons_append] at ih
    by_cases slash : c = '/'
    · rw [slash, List.cons_append, cut_slash, cut_slash, ih, eq]
      rfl
    · rw [List.cons_append, cut_cons slash ih, cut_cons slash eq]
      rfl

theorem cut_eq_singleton {path : List Char} (slashless : '/' ∉ path) : cut path = [path] := by
  induction path with
  | nil => rfl
  | cons c rest ih =>
    exact cut_cons (fun slash => slashless (slash ▸ .head _))
      (ih fun mem => slashless (.tail _ mem))

theorem eq_nil_of_cut {path : List Char} (empty : cut path = [[]]) : path = [] := by
  cases path with
  | nil => rfl
  | cons c rest =>
    obtain ⟨piece, pieces, eq⟩ := List.exists_cons_of_ne_nil (cut_ne_nil rest)
    by_cases slash : c = '/'
    · rw [slash, cut_slash, eq] at empty
      cases empty
    · rw [cut_cons slash eq] at empty
      cases empty

theorem components_join (directory : String) {name : String} (isName : IsName name) :
    components (join directory name) = components directory ++ [.name name] := by
  obtain ⟨slashless, is⟩ := isName
  have relative : name.startsWith "/" = false := by
    rw [Bool.eq_false_iff]
    intro starts
    exact slashless ((String.startsWith_string_iff.1 starts).subset (.head _))
  have pieces : cut name.toList = [name.toList] := cut_eq_singleton slashless
  have notEmpty : name.toList ≠ [] := fun eq => by rw [eq] at is; cases is
  have notDot : name.toList ≠ ['.'] := fun eq => by rw [eq] at is; cases is
  have single : [name.toList].filterMap component? = [.name name] := by
    rw [List.filterMap_cons_some is, List.filterMap_nil]
  rw [join, relative, Bool.or_false]
  by_cases empty : directory.isEmpty
  · have is : directory = "" := by simpa using empty
    subst is
    rw [if_pos empty, components, pieces]
    split
    · next eq => exact absurd (List.cons.inj eq).1 notEmpty
    · next eq => exact absurd (List.cons.inj eq).1 notDot
    · exact single
  · rw [if_neg empty]
    have text : (directory ++ "/" ++ name).toList = directory.toList ++ '/' :: name.toList := by
      simp
    unfold components
    rw [text, cut_append, pieces]
    obtain ⟨piece, more, eq⟩ := List.exists_cons_of_ne_nil (cut_ne_nil directory.toList)
    rw [eq, List.cons_append]
    have onward (pieces : List (List Char)) : (pieces ++ [name.toList]).filterMap component? =
        pieces.filterMap component? ++ [.name name] := by
      rw [List.filterMap_append, single]
    by_cases nil : piece = []
    · subst nil
      cases more with
      | nil => exact absurd (String.toList_eq_nil_iff.1 (eq_nil_of_cut eq)) (by simpa using empty)
      | cons next more => exact congrArg (PathComponent.root :: ·) (onward (next :: more))
    · by_cases dot : piece = ['.']
      · subst dot
        exact congrArg (PathComponent.here :: ·) (onward more)
      · split
        · next eq => exact absurd (List.cons.inj eq).1 nil
        · next eq => exact absurd (List.cons.inj eq).1 dot
        · split
          · next eq => exact absurd (List.cons.inj eq).1 nil
          · next eq => exact absurd (List.cons.inj eq).1 dot
          · exact onward (piece :: more)

end Path

/-- A node without what lies in it. -/
def FileNode.bare : FileNode → FileNode
  | .directory _ => .directory []
  | node => node

namespace FileTree

variable {tree after last : FileTree} {here place : List String} {name : String}

/-! ## Places -/

/-- What is at a place, without what lies in it. -/
def outline? (tree : FileTree) (place : List String) : Option FileNode :=
  (tree.get? place).map FileNode.bare

def IsDirectory (tree : FileTree) (place : List String) : Prop :=
  tree.outline? place = some (.directory [])

theorem isDirectory_iff : tree.IsDirectory place ↔
    ∃ entries, tree.get? place = some (.directory entries) := by
  unfold IsDirectory outline?
  rw [Option.map_eq_some_iff]
  refine ⟨fun ⟨node, there, bare⟩ => ?_, fun ⟨entries, there⟩ => ⟨_, there, rfl⟩⟩
  cases node with
  | directory entries => exact ⟨entries, there⟩
  | file | link => cases bare

@[simp] theorem get?_nil (tree : FileTree) : tree.get? [] = some tree := by
  cases tree <;> rfl

theorem isDirectory_nil : tree.IsDirectory [] ↔ ∃ entries, tree = .directory entries := by
  simp only [isDirectory_iff, get?_nil, Option.some.injEq]

@[simp] theorem outline?_eq_none : tree.outline? place = none ↔ tree.get? place = none :=
  Option.map_eq_none_iff

theorem get?_cons (name : String) (rest : List String) (tree : FileTree) :
    tree.get? (name :: rest) =
      match tree with
      | .directory entries => (Table.lookup name entries).bind (get? rest)
      | _ => none := by
  cases tree <;> rfl

theorem get?_append (first rest : List String) (tree : FileTree) :
    tree.get? (first ++ rest) = (tree.get? first).bind (get? rest) := by
  induction first generalizing tree with
  | nil => rw [List.nil_append, get?_nil, Option.bind_some]
  | cons name first ih =>
    rw [List.cons_append, get?_cons, get?_cons]
    cases tree with
    | file | link => rfl
    | directory entries =>
      simp only
      cases Table.lookup name entries with
      | none => rfl
      | some node => exact ih node

theorem IsDirectory.of_append {first rest : List String} (apart : rest ≠ [])
    (there : tree.get? (first ++ rest) ≠ none) : tree.IsDirectory first := by
  rw [get?_append] at there
  rw [isDirectory_iff]
  cases found : tree.get? first with
  | none => rw [found] at there; exact absurd rfl there
  | some node =>
    rw [found, Option.bind_some] at there
    obtain ⟨name, rest, rfl⟩ := List.exists_cons_of_ne_nil apart
    rw [get?_cons] at there
    cases node with
    | directory entries => exact ⟨entries, rfl⟩
    | file | link => exact absurd rfl there

theorem IsDirectory.exists (stands : tree.IsDirectory here) : tree.get? here ≠ none := by
  obtain ⟨entries, there⟩ := isDirectory_iff.1 stands
  rw [there]
  exact Option.some_ne_none _

theorem IsDirectory.dropLast (stands : tree.IsDirectory here) : tree.IsDirectory here.dropLast := by
  rcases List.eq_nil_or_concat here with rfl | ⟨first, name, rfl⟩
  · exact stands
  · rw [List.concat_eq_append, List.dropLast_concat]
    exact .of_append (List.cons_ne_nil name []) (List.concat_eq_append .. ▸ stands.exists)

theorem IsDirectory.root (stands : tree.IsDirectory here) : tree.IsDirectory [] := by
  cases here with
  | nil => exact stands
  | cons name rest => exact .of_append (List.cons_ne_nil name rest) stands.exists

/-! ## What is added -/

/-- Directories were added at places where nothing was, and everything else is the same. -/
structure Gains (added : List (List String)) (before after : FileTree) : Prop where
  vacant : ∀ place ∈ added, before.get? place = none
  outline : ∀ place, after.outline? place =
    if place ∈ added then some (.directory []) else before.outline? place

namespace Gains

variable {added more : List (List String)}

theorem of_outline (same : ∀ place, after.outline? place = tree.outline? place) :
    Gains [] tree after where
  vacant _ mem := absurd mem List.not_mem_nil
  outline place := by rw [same, if_neg List.not_mem_nil]

theorem kept (gains : Gains added tree after) (there : tree.get? place ≠ none) :
    after.outline? place = tree.outline? place := by
  rw [gains.outline, if_neg fun mem => there (gains.vacant place mem)]

theorem isDirectory (gains : Gains added tree after) (stands : tree.IsDirectory place) :
    after.IsDirectory place :=
  (gains.kept stands.exists).trans stands

theorem trans (gains : Gains added tree after) (next : Gains more after last) :
    Gains (added ++ more) tree last where
  vacant place mem := by
    rcases List.mem_append.1 mem with mem | mem
    · exact gains.vacant place mem
    · have gone := next.vacant place mem
      by_contra there
      rw [← outline?_eq_none, gains.kept there, outline?_eq_none] at gone
      exact there gone
  outline place := by
    rw [next.outline, gains.outline]
    by_cases first : place ∈ added
    · simp [first]
    · simp [first]

theorem file (gains : Gains added tree after) {content : ByteArray}
    (there : tree.get? place = some (.file content)) : after.get? place = some (.file content) := by
  have stands : tree.get? place ≠ none := by rw [there]; exact Option.some_ne_none _
  have same := gains.kept stands
  rw [outline?, outline?, there, Option.map_some, Option.map_eq_some_iff] at same
  obtain ⟨node, found, bare⟩ := same
  cases node with
  | file | link => rw [found]; exact congrArg some bare
  | directory entries => cases bare

end Gains

theorem lookup_putEntry (name other : String) (node : FileNode)
    (entries : List (String × FileNode)) :
    Table.lookup other (putEntry name (some node) entries) =
      if name = other then some node else Table.lookup other entries := by
  have behind (first : List (String × FileNode)) : Table.lookup other (first ++ [(name, node)]) =
      (Table.lookup other first).or (if name = other then some node else none) := by
    induction first with
    | nil => rfl
    | cons head rest ih =>
      rw [List.cons_append, Table.lookup, Table.lookup, ih]
      split <;> rfl
  rw [putEntry, Option.map_some, Option.toList_some, behind, Table.lookup_filter_ne]
  split
  · rfl
  · rw [Option.or_none]

theorem put_leaf (leaf : ∀ entries, tree ≠ .directory entries) (place : List String)
    (node : Option FileNode) : tree.put place node = tree := by
  cases tree with
  | directory entries => exact absurd rfl (leaf entries)
  | file | link => rcases place with _ | ⟨name, _ | ⟨next, rest⟩⟩ <;> rfl

theorem put_directory {rest : List String} (apart : rest ≠ []) (name : String)
    (node : Option FileNode) (entries : List (String × FileNode)) :
    put (name :: rest) node (.directory entries) =
      .directory (entries.map fun e => (e.1, if e.1 = name then put rest node e.2 else e.2)) := by
  obtain ⟨next, rest, rfl⟩ := List.exists_cons_of_ne_nil apart
  rw [put.eq_def]
  refine congrArg FileNode.directory (List.map_congr_left fun e _ => ?_)
  split
  · next eq => rw [← eq]
  · rfl

theorem outline?_cons (name : String) (rest : List String) (entries : List (String × FileNode)) :
    outline? (.directory entries) (name :: rest) =
      (Table.lookup name entries).bind (outline? · rest) := by
  rw [outline?, get?_cons, Option.map_bind]
  rfl

/-- A directory is put into another, and nowhere else. -/
theorem outline?_put (here : List String) {tree : FileTree}
    (missing : tree.get? (here ++ [name]) = none) (other : List String) :
    (tree.IsDirectory here → (tree.put (here ++ [name]) (some (.directory []))).outline? other =
      if other = here ++ [name] then some (.directory []) else tree.outline? other) ∧
    (¬ tree.IsDirectory here →
      (tree.put (here ++ [name]) (some (.directory []))).outline? other = tree.outline? other) := by
  induction here generalizing tree other with
  | nil =>
    cases tree with
    | file | link => exact ⟨nofun, fun _ => rfl⟩
    | directory entries =>
      refine ⟨fun _ => ?_, fun no => absurd rfl no⟩
      rw [List.nil_append, put]
      cases other with
      | nil => rfl
      | cons first rest =>
        rw [outline?_cons, outline?_cons, lookup_putEntry]
        simp only [List.cons.injEq]
        by_cases same : name = first
        · subst same
          rw [List.nil_append, get?_cons] at missing
          have gone : Table.lookup name entries = none := by
            cases found : Table.lookup name entries with
            | none => rfl
            | some node => simp [found] at missing
          rw [if_pos rfl, gone]
          cases rest with
          | nil => rw [if_pos ⟨rfl, rfl⟩]; rfl
          | cons next rest => rw [if_neg fun eq => List.cons_ne_nil next rest eq.2]; rfl
        · rw [if_neg same, if_neg fun eq => same eq.1.symm]
  | cons first here ih =>
    have apart : here ++ [name] ≠ [] := List.append_ne_nil_of_right_ne_nil _ (List.cons_ne_nil _ _)
    cases tree with
    | file | link =>
      refine ⟨fun stands => ?_, fun _ => by rw [put_leaf fun _ eq => by cases eq]⟩
      obtain ⟨entries, eq⟩ := isDirectory_nil.1 stands.root
      cases eq
    | directory entries =>
      rw [List.cons_append, put_directory apart]
      cases other with
      | nil => exact ⟨fun _ => by rw [if_neg (List.cons_ne_nil _ _).symm]; rfl, fun _ => rfl⟩
      | cons first' rest =>
        have moved := Table.lookup_map (fun key node => if key = first then
          put (here ++ [name]) (some (.directory [])) node else node) first' entries
        rw [outline?_cons, outline?_cons, moved]
        rw [List.cons_append, get?_cons] at missing
        unfold IsDirectory
        simp only [outline?_cons, List.cons.injEq]
        by_cases same : first' = first
        · subst same
          cases found : Table.lookup first' entries with
          | none => exact ⟨nofun, fun _ => rfl⟩
          | some node =>
            simp only [found, Option.bind_some] at missing
            have inner := ih missing rest
            simpa [found, IsDirectory] using inner
        · simp [same]

/-- Putting a directory into another adds it, and nothing is put elsewhere. -/
theorem gains_put (missing : tree.get? (here ++ [name]) = none) :
    (tree.IsDirectory here →
      Gains [here ++ [name]] tree (tree.put (here ++ [name]) (some (.directory [])))) ∧
    (¬ tree.IsDirectory here →
      Gains [] tree (tree.put (here ++ [name]) (some (.directory [])))) := by
  refine ⟨fun stands => ⟨fun place mem => ?_, fun place => ?_⟩,
    fun no => .of_outline fun place => (outline?_put here missing place).2 no⟩
  · rw [List.mem_singleton.1 mem]
    exact missing
  · simpa only [List.mem_singleton] using (outline?_put here missing place).1 stands

/-- Making the directories of a path adds directories and leaves all else alone. -/
theorem gains_makeDirectories {components : List PathComponent} {there : List String}
    (made : makeDirectories tree here components = some (after, there)) :
    ∃ added, Gains added tree after := by
  induction components generalizing tree here with
  | nil =>
    cases made
    exact ⟨[], .of_outline fun _ => rfl⟩
  | cons component rest ih =>
    cases component with
    | root | here | parent => exact ih made
    | name name =>
      rw [makeDirectories] at made
      cases found : tree.get? (here ++ [name]) with
      | none =>
        simp only [found] at made
        obtain ⟨more, gains⟩ := ih made
        by_cases stands : tree.IsDirectory here
        · exact ⟨_, ((gains_put found).1 stands).trans gains⟩
        · exact ⟨_, ((gains_put found).2 stands).trans gains⟩
      | some node =>
        simp only [found] at made
        cases walked : walk tree false maxLinks here [.name name] with
        | error problem => rw [walked] at made; cases made
        | ok place =>
          simp only [walked] at made
          split at made
          · exact ih made
          · cases made

theorem gains_makeDirectory? {path : String} (made : tree.makeDirectory? path = some after) :
    ∃ added, Gains added tree after := by
  obtain ⟨⟨_, there⟩, made', rfl⟩ := Option.map_eq_some_iff.1 made
  exact gains_makeDirectories made'

/-! ## Finding what was there -/

section Walks

variable {follow follow' : List PathComponent → Except PathProblem (List String)}
  {components : List PathComponent} {result : Except PathProblem (List String)}

/-- A way leads to the same in a tree in which everything on it is the same. -/
theorem walkUntilLink_of_kept (kept : ∀ place, tree.get? place ≠ none →
      after.outline? place = tree.outline? place)
    (onward : ∀ components, follow components = result → follow' components = result)
    (known : result ≠ .error .missing)
    (walked : walkUntilLink tree false follow here components = result) :
    walkUntilLink after false follow' here components = result := by
  induction components generalizing here with
  | nil => exact walked
  | cons component rest ih =>
    cases component with
    | root | here | parent => exact ih walked
    | name name =>
      rw [walkUntilLink] at walked ⊢
      cases found : tree.get? (here ++ [name]) with
      | none =>
        simp only [found, Bool.false_and, Bool.false_eq_true, if_false] at walked
        exact absurd walked.symm known
      | some node =>
        have same := kept (here ++ [name]) (by rw [found]; exact Option.some_ne_none _)
        rw [outline?, outline?, found, Option.map_some, Option.map_eq_some_iff] at same
        obtain ⟨node', found', bare⟩ := same
        rw [found'] 
        simp only [found] at walked
        cases node with
        | directory entries =>
          cases node' with
          | directory entries' => exact ih walked
          | file | link => cases bare
        | file content =>
          cases node' with
          | file content' => exact walked
          | directory | link => cases bare
        | link target =>
          cases node' with
          | link target' =>
            cases bare
            exact onward _ walked
          | directory | file => cases bare

theorem walk_of_kept (kept : ∀ place, tree.get? place ≠ none →
      after.outline? place = tree.outline? place) (known : result ≠ .error .missing)
    {links : Nat} (walked : walk tree false links here components = result) :
    walk after false links here components = result := by
  induction links generalizing here components with
  | zero => exact walkUntilLink_of_kept kept (fun _ eq => eq) known walked
  | succ links ih => exact walkUntilLink_of_kept kept (fun _ => ih) known walked

theorem walk_succ {links : Nat} (walked : walk tree false links here components = .ok place) :
    walk tree false (links + 1) here components = .ok place := by
  have known : (.ok place : Except PathProblem (List String)) ≠ .error .missing := nofun
  induction links generalizing here components with
  | zero => exact walkUntilLink_of_kept (fun _ _ => rfl) (fun _ eq => by cases eq) known walked
  | succ links ih => exact walkUntilLink_of_kept (fun _ _ => rfl) (fun _ => ih) known walked

theorem walk_le {links more : Nat} (le : links ≤ more)
    (walked : walk tree false links here components = .ok place) :
    walk tree false more here components = .ok place := by
  induction le with
  | refl => exact walked
  | step _ ih => exact walk_succ ih

end Walks

theorem Gains.resolve {added : List (List String)} (gains : Gains added tree after)
    {components : List PathComponent} {result : Except PathProblem (List String)}
    (known : result ≠ .error .missing) (found : tree.resolve components = result) :
    after.resolve components = result :=
  walk_of_kept (fun _ => gains.kept) known found

theorem find_eq_ok {path : String} {node : FileNode} : tree.find path = .ok node ↔
    ∃ place, tree.resolve (Path.components path) = .ok place ∧ tree.get? place = some node := by
  unfold FileTree.find
  cases led : tree.resolve (Path.components path) with
  | error problem => simp [Except.bind]
  | ok place => cases found : tree.get? place <;> simp [Except.bind, found]

theorem Gains.find {added : List (List String)} (gains : Gains added tree after) {path : String}
    (known : tree.find path ≠ .error .missing) :
    (after.find path).map FileNode.bare = (tree.find path).map FileNode.bare := by
  unfold FileTree.find at known ⊢
  cases led : tree.resolve (Path.components path) with
  | error problem =>
    rw [led] at known
    have again := gains.resolve (fun eq => known (by rw [eq]; rfl)) led
    rw [again]
    rfl
  | ok place =>
    rw [led] at known
    have again : after.resolve (Path.components path) = .ok place := gains.resolve nofun led
    rw [again]
    simp only [Except.bind] at known ⊢
    cases found : tree.get? place with
    | none => rw [found] at known; exact absurd rfl known
    | some node =>
      have stands : tree.get? place ≠ none := by rw [found]; exact Option.some_ne_none _
      have same := gains.kept stands
      rw [outline?, outline?, found, Option.map_some, Option.map_eq_some_iff] at same
      obtain ⟨node', found', bare⟩ := same
      rw [found']
      exact congrArg Except.ok bare

/-! ## Inside a directory that is there -/

section Ways

variable {first rest : List PathComponent}

/-- A way can be stopped at any of its components, and goes on from there. -/
theorem walkUntilLink_append {follow : List PathComponent → Except PathProblem (List String)}
    (stands : tree.IsDirectory here)
    (onward : ∀ components, follow (components ++ rest) = .ok place →
      ∃ mid, follow components = .ok mid ∧ (rest = [] ∨ tree.IsDirectory mid) ∧
        walkUntilLink tree false follow mid rest = .ok place)
    (walked : walkUntilLink tree false follow here (first ++ rest) = .ok place) :
    ∃ mid, walkUntilLink tree false follow here first = .ok mid ∧
      (rest = [] ∨ tree.IsDirectory mid) ∧
      walkUntilLink tree false follow mid rest = .ok place := by
  induction first generalizing here with
  | nil => exact ⟨here, rfl, .inr stands, walked⟩
  | cons component first ih =>
    cases component with
    | root => exact ih stands.root walked
    | here => exact ih stands walked
    | parent => exact ih stands.dropLast walked
    | name name =>
      rw [List.cons_append, walkUntilLink] at walked
      rw [walkUntilLink]
      cases found : tree.get? (here ++ [name]) with
      | none => simp [found] at walked
      | some node =>
        rw [found] at walked
        cases node with
        | directory entries => exact ih (isDirectory_iff.2 ⟨entries, found⟩) walked
        | file content =>
          simp only [List.isEmpty_iff, List.append_eq_nil_iff] at walked ⊢
          split at walked
          · next ends =>
            cases walked
            obtain ⟨rfl, rfl⟩ := ends
            exact ⟨_, if_pos rfl, .inl rfl, rfl⟩
          · cases walked
        | link target =>
          simp only [← List.append_assoc] at walked
          exact onward _ walked

theorem walk_append {links : Nat} (stands : tree.IsDirectory here)
    (walked : walk tree false links here (first ++ rest) = .ok place) :
    ∃ mid, walk tree false links here first = .ok mid ∧ (rest = [] ∨ tree.IsDirectory mid) ∧
      walk tree false links mid rest = .ok place := by
  induction links generalizing here first rest with
  | zero => exact walkUntilLink_append stands (fun _ eq => by cases eq) walked
  | succ links ih =>
    refine walkUntilLink_append stands (fun components led => ?_) walked
    obtain ⟨mid, reached, directory, further⟩ := ih stands.root led
    exact ⟨mid, reached, directory, walk_succ further⟩

theorem walk_name (tree : FileTree) (links : Nat) (here : List String) (name : String)
    (rest : List PathComponent) : walk tree false links here (.name name :: rest) =
      match tree.get? (here ++ [name]) with
      | none => .error .missing
      | some (.directory _) => walk tree false links (here ++ [name]) rest
      | some (.file _) => if rest.isEmpty then .ok (here ++ [name]) else .error .notDirectory
      | some (.link target) =>
        match links with
        | 0 => .error .linkLoop
        | links + 1 => walk tree false links [] (Path.components target ++ rest) := by
  cases links <;> rfl

@[simp] theorem walk_nil (tree : FileTree) (links : Nat) (here : List String) :
    walk tree false links here [] = .ok here := by
  cases links <;> rfl

/-- Where a way leads to a directory, there is nothing to make on it. -/
theorem makeDirectories_of_walk {links : Nat} (enough : links ≤ maxLinks)
    (stands : tree.IsDirectory here) (directory : tree.IsDirectory place)
    (walked : walk tree false links here first = .ok place) (rest : List PathComponent) :
    makeDirectories tree here (first ++ rest) = makeDirectories tree place rest := by
  induction first generalizing here links with
  | nil =>
    rw [walk_nil] at walked
    cases walked
    rfl
  | cons component first ih =>
    cases component with
    | root => exact ih enough stands.root (by cases links <;> exact walked)
    | here => exact ih enough stands (by cases links <;> exact walked)
    | parent => exact ih enough stands.dropLast (by cases links <;> exact walked)
    | name name =>
      rw [List.cons_append, makeDirectories, walk_name]
      rw [walk_name] at walked
      cases found : tree.get? (here ++ [name]) with
      | none => rw [found] at walked; cases walked
      | some node =>
        simp only [found] at walked ⊢
        cases node with
        | directory entries =>
          simp only [walk_nil, found]
          exact ih enough (isDirectory_iff.2 ⟨entries, found⟩) walked
        | file content =>
          simp only at walked
          split at walked
          · cases walked
            obtain ⟨entries, eq⟩ := isDirectory_iff.1 directory
            cases found.symm.trans eq
          · cases walked
        | link target =>
          cases links with
          | zero => cases walked
          | succ links =>
            obtain ⟨mid, reached, isMid, further⟩ := walk_append stands.root walked
            have midStands : tree.IsDirectory mid := by
              rcases isMid with rfl | isMid
              · rw [walk_nil] at further
                cases further
                exact directory
              · exact isMid
            obtain ⟨entries, there⟩ := isDirectory_iff.1 midStands
            have fromHere : walk tree false (maxLinks - 1) [] (Path.components target ++ []) =
                .ok mid := by
              rw [List.append_nil]
              exact walk_le (Nat.le_sub_one_of_lt enough) reached
            have budget : maxLinks = (maxLinks - 1) + 1 := rfl
            rw [budget]
            simp only [fromHere, there]
            exact ih (Nat.le_of_succ_le enough) midStands further

end Ways

/-- By a name in a directory that is there, at most that one directory is made. -/
theorem gains_join {root name : String} (isName : Path.IsName name) {home : List String}
    (led : tree.resolve (Path.components root) = .ok home) (stands : tree.IsDirectory home)
    (made : tree.makeDirectory? (Path.join root name) = some after) :
    ∃ added, (∀ place ∈ added, place = home ++ [name]) ∧ Gains added tree after := by
  obtain ⟨⟨_, there⟩, made', rfl⟩ := Option.map_eq_some_iff.1 made
  rw [Path.components_join root isName,
    makeDirectories_of_walk (Nat.le_refl _) stands.root stands led, makeDirectories] at made'
  cases found : tree.get? (home ++ [name]) with
  | none =>
    simp only [found] at made'
    cases made'
    exact ⟨[home ++ [name]], fun _ mem => List.mem_singleton.1 mem, (gains_put found).1 stands⟩
  | some node =>
    simp only [found] at made'
    refine ⟨[], fun _ mem => absurd mem List.not_mem_nil, .of_outline fun _ => ?_⟩
    split at made'
    · cases made'
    · split at made'
      · cases made'
        rfl
      · cases made'

end FileTree
end ScriptHost
