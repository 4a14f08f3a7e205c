import Mathlib.Data.List.ReduceOption
import ScriptHost.Proofs.Project.Holdings
import ScriptHost.Proofs.Project.Runs
/-!
# What is read from a disk

Reading a document changes nothing and depends on what its path leads to only. So all that a
directory comes to can be told from one tree.

**Results.**
* `gives_readDocument?`, `gives_readConfig`: what reading a document comes to.
* `document_of_prepare`: the documents of a directory are those of its files.
* `Edit.read`, `Edit.edited`: edited files can be read one by one, and say what is held now.
-/
namespace ScriptHost.Disk

variable {α β : Type} {disk after : FileTree}

/-! ## Computations in a row -/

section InARow

variable {σ : Type} {s s' : σ}

theorem run_bind_ok {x : ExceptT LoadError (StateM σ) α} {f : α → ExceptT LoadError (StateM σ) β}
    {a : α} (h : x.run.run s = (.ok a, s')) : (x >>= f).run.run s = (f a).run.run s' := by
  simp only [ExceptT.run_bind, StateT.run_bind, h]
  rfl

theorem run_bind_error {x : ExceptT LoadError (StateM σ) α}
    {f : α → ExceptT LoadError (StateM σ) β} {problem : LoadError}
    (h : x.run.run s = (.error problem, s')) : (x >>= f).run.run s = (.error problem, s') := by
  simp only [ExceptT.run_bind, StateT.run_bind, h]
  rfl

theorem run_get_bind (f : σ → ExceptT LoadError (StateM σ) β) (s : σ) :
    (get >>= f : ExceptT LoadError (StateM σ) β).run.run s = (f s).run.run s := rfl

end InARow

theorem outcome?_bind_eq_some {x : Disk α} {f : α → Disk β} {b : β} :
    (x >>= f).outcome? disk = some b ↔
      ∃ a after, x.run.run disk = (.ok a, after) ∧ (f a).outcome? after = some b := by
  rcases eq : x.run.run disk with ⟨problem | a, after⟩
  · rw [outcome?, run_bind_error eq]
    refine ⟨fun made => ?_, ?_⟩
    · cases made
    · rintro ⟨_, _, ⟨⟩, _⟩
  · rw [outcome?, run_bind_ok eq]
    refine ⟨fun made => ⟨a, after, rfl, made⟩, ?_⟩
    rintro ⟨_, _, ⟨⟩, made⟩
    exact made

/-- A computation changes nothing and comes to a result, or fails. -/
def Gives (x : Disk α) (disk : FileTree) (result : Option α) : Prop :=
  ∃ made, x.run.run disk = (made, disk) ∧ made.toOption = result

theorem Gives.outcome {x : Disk α} {result : Option α} (h : Gives x disk result) :
    x.outcome? disk = result := by
  obtain ⟨made, eq, rfl⟩ := h
  rw [outcome?, eq]

theorem Gives.bind {x : Disk α} {f : α → Disk β} {result : Option α} {result' : α → Option β}
    (h : Gives x disk result) (next : ∀ a, Gives (f a) disk (result' a)) :
    Gives (x >>= f) disk (result.bind result') := by
  obtain ⟨problem | a, eq, rfl⟩ := h
  · exact ⟨.error problem, run_bind_error eq, rfl⟩
  · obtain ⟨made, eq', given⟩ := next a
    exact ⟨made, (run_bind_ok eq).trans eq', given⟩

/-! ## Documents -/

/-- Whether something is at what a path leads to, if that can be told. -/
def presenceOf? : Except PathProblem FileNode → Option Bool
  | .ok _ => some true
  | .error .missing => some false
  | .error _ => none

theorem missing_of_absent {node : Except PathProblem FileNode}
    (absent : presenceOf? node = some false) : node = .error .missing := by
  cases node with
  | ok => cases absent
  | error problem => cases problem <;> first | rfl | cases absent

def textOf? : Except PathProblem FileNode → Option (Option String)
  | .ok (.file content) => (String.fromUTF8? content).map some
  | .error .missing => some none
  | _ => none

def documentOf? (node : Except PathProblem FileNode) : Option (Option ConfigDocument) :=
  (textOf? node).bind fun text => text.elim (some none) fun text => (Toml.read? text).map some

theorem gives_contains (path : String) (disk : FileTree) :
    Gives (contains path) disk (presenceOf? (disk.find path)) := by
  unfold Gives contains
  rw [run_get_bind]
  cases disk.find path with
  | ok node => exact ⟨_, rfl, rfl⟩
  | error problem => cases problem <;> exact ⟨_, rfl, rfl⟩

theorem gives_readText? (path : String) (disk : FileTree) :
    Gives (readText? path) disk (textOf? (disk.find path)) := by
  obtain ⟨made, eq, present⟩ := gives_contains path disk
  unfold Gives readText?
  cases found : disk.find path with
  | error problem =>
    rw [found] at present
    cases problem with
    | missing =>
      cases made with
      | error problem => cases present
      | ok known =>
        cases present
        exact ⟨_, run_bind_ok eq, rfl⟩
    | notDirectory | linkLoop =>
      cases made with
      | error problem => exact ⟨_, run_bind_error eq, rfl⟩
      | ok known => cases present
  | ok node =>
    rw [found] at present
    cases made with
    | error problem => cases present
    | ok known =>
      cases present
      rw [run_bind_ok eq]
      simp only [if_pos]
      rw [run_get_bind, found]
      cases node with
      | file content =>
        simp only [textOf?]
        cases String.fromUTF8? content <;> exact ⟨_, rfl, rfl⟩
      | link | directory => exact ⟨_, rfl, rfl⟩

theorem gives_readDocument? (path : String) (disk : FileTree) :
    Gives (readDocument? path) disk (documentOf? (disk.find path)) := by
  refine (gives_readText? path disk).bind fun text => ?_
  cases text with
  | none => exact ⟨_, rfl, rfl⟩
  | some text =>
    simp only [Option.elim_some]
    cases Toml.read? text <;> exact ⟨_, rfl, rfl⟩

theorem gives_readConfig (path : String) (disk : FileTree) :
    Gives (readConfig path) disk
      ((documentOf? (disk.find (disk.normalize path))).map fun document =>
      (disk.normalize path, document.getD .empty)) := by
  let file := disk.normalize path
  have read : Gives (readDocument? file >>= fun document =>
      (pure (file, document.getD .empty) : Disk (String × ConfigDocument))) disk
      ((documentOf? (disk.find file)).bind fun document => some (file, document.getD .empty)) :=
    (gives_readDocument? file disk).bind fun _ => ⟨_, rfl, rfl⟩
  unfold Gives readConfig
  rw [run_get_bind, Option.map_eq_bind]
  exact read

/-- Two spellings of a path lead to the same. -/
theorem find_congr {path other : String} (same : Path.same path other) :
    disk.find path = disk.find other := by
  have components : Path.components path = Path.components other := by
    simpa [Path.same] using same
  rw [FileTree.find, FileTree.find, components]

/-! ## Directories -/

theorem mem_of_mapM {f : α → Disk β} {list : List α} (same : ∀ a, ∃ result, Gives (f a) disk result)
    {results : List β} (made : (list.mapM f).outcome? disk = some results) {b : β}
    (mem : b ∈ results) : ∃ a, (f a).outcome? disk = some b := by
  induction list generalizing results with
  | nil =>
    rw [List.mapM_nil] at made
    cases made
    cases mem
  | cons a rest ih =>
    rw [List.mapM_cons, outcome?_bind_eq_some] at made
    obtain ⟨first, after, eq, made⟩ := made
    obtain ⟨result, known, eq', -⟩ := same a
    cases eq.symm.trans eq'
    obtain ⟨others, _, eq'', made⟩ := outcome?_bind_eq_some.1 made
    cases made
    rcases List.mem_cons.1 mem with rfl | mem
    · exact ⟨a, by rw [outcome?, eq]; rfl⟩
    · exact ih (by rw [outcome?, eq'']; rfl) mem

theorem gives_listed (path name : String) (disk : FileTree) :
    Gives (do
      let file := (← get).normalize (Path.join path name)
      let document ← readDocument? file
      return document.map fun document => (file, document)) disk
      ((documentOf? (disk.find (disk.normalize (Path.join path name)))).map fun document =>
        document.map fun document => (disk.normalize (Path.join path name), document)) := by
  let file := disk.normalize (Path.join path name)
  have read : Gives (readDocument? file >>= fun document =>
      (pure (document.map fun document => (file, document)) :
        Disk (Option (String × ConfigDocument)))) disk
      ((documentOf? (disk.find file)).bind fun document =>
        some (document.map fun document => (file, document))) :=
    (gives_readDocument? file disk).bind fun _ => ⟨_, rfl, rfl⟩
  unfold Gives
  rw [run_get_bind, Option.map_eq_bind]
  exact read

theorem gives_mapM {f : α → Disk β} {result : α → Option β}
    (each : ∀ a, Gives (f a) disk (result a)) (list : List α) :
    Gives (list.mapM f) disk (list.mapM result) := by
  induction list with
  | nil => exact ⟨_, rfl, rfl⟩
  | cons a rest ih =>
    rw [List.mapM_cons, List.mapM_cons]
    exact (each a).bind fun b => ih.bind fun others => ⟨_, rfl, rfl⟩

/-- A file of a directory with its document, if that can be read. -/
def listed? (disk : FileTree) (path name : String) : Option (Option (String × ConfigDocument)) :=
  (documentOf? (disk.find (disk.normalize (Path.join path name)))).map fun document =>
    document.map fun document => (disk.normalize (Path.join path name), document)

/-- The documents of a directory, if all of them can be read. -/
def documentsOf? (disk : FileTree) (path : String) : Option (List (String × ConfigDocument)) :=
  match disk.find path with
  | .ok (.directory entries) =>
    ((configNames entries).mapM (listed? disk path)).map List.reduceOption
  | _ => none

theorem gives_readDirectory (path : String) (disk : FileTree) :
    Gives (readDirectory path) disk (documentsOf? disk path) := by
  unfold Gives readDirectory documentsOf?
  rw [run_get_bind]
  cases disk.find path with
  | error problem => exact ⟨_, rfl, rfl⟩
  | ok node =>
    cases node with
    | file | link => exact ⟨_, rfl, rfl⟩
    | directory entries =>
      have all := gives_mapM (fun name => gives_listed path name disk) (configNames entries)
      change Gives (_ >>= _) disk (Option.map _ _)
      rw [Option.map_eq_bind]
      exact all.bind fun _ => ⟨_, rfl, rfl⟩

def settingsOf? (node : Except PathProblem FileNode) : Option Settings :=
  (textOf? node).bind fun text => text.elim (some {}) Settings.read?

theorem gives_readSettings (root : String) (disk : FileTree) :
    Gives (readSettings root) disk (settingsOf? (disk.find (Path.join root settingsFile))) := by
  unfold readSettings settingsOf?
  refine (gives_readText? (Path.join root settingsFile) disk).bind fun text => ?_
  cases text with
  | none => exact ⟨_, rfl, rfl⟩
  | some text =>
    simp only [Option.elim_some]
    cases Settings.read? text <;> exact ⟨_, rfl, rfl⟩

theorem document_of_readDirectory {path file : String} {documents : List (String × ConfigDocument)}
    {document : ConfigDocument} (read : (readDirectory path).outcome? disk = some documents)
    (mem : (file, document) ∈ documents) : documentOf? (disk.find file) = some (some document) := by
  unfold readDirectory at read
  rw [outcome?, run_get_bind] at read
  cases found : disk.find path with
  | error problem => rw [found] at read; cases read
  | ok node =>
    rw [found] at read
    cases node with
    | file | link => cases read
    | directory entries =>
      change Disk.outcome? (_ >>= _) disk = _ at read
      obtain ⟨results, after, eq, made⟩ := outcome?_bind_eq_some.1 read
      cases made
      obtain ⟨name, step⟩ := mem_of_mapM (fun name => ⟨_, gives_listed path name disk⟩)
        (by rw [outcome?, eq]; rfl) (List.reduceOption_mem_iff.1 mem)
      rw [(gives_listed path name disk).outcome, Option.map_eq_some_iff] at step
      obtain ⟨made, found, listed⟩ := step
      obtain ⟨_, rfl, listed⟩ := Option.map_eq_some_iff.1 listed
      cases listed
      exact found

/-- The documents of a directory are those of its files, on the disk if the directory is there. -/
theorem document_of_prepare {path : String} {documents : List (String × ConfigDocument)}
    (read : (prepare path).outcome? disk = some documents) :
    ∃ tree : FileTree, (disk.contains path → tree = disk) ∧
      ∀ file document, (file, document) ∈ documents →
        documentOf? (tree.find file) = some (some document) := by
  obtain ⟨_, tree, eq, read⟩ := outcome?_bind_eq_some.1 read
  refine ⟨tree, fun there => ?_, fun file document mem => document_of_readDirectory read mem⟩
  obtain ⟨made, present, given⟩ := gives_contains path disk
  unfold FileTree.contains at there
  cases found : disk.find path with
  | error problem => rw [found] at there; cases there
  | ok node =>
    rw [found] at given
    cases made with
    | error problem => cases given
    | ok known =>
      cases given
      unfold ensureDirectory at eq
      rw [run_bind_ok present] at eq
      cases eq
      rfl

theorem consistent_of_prepare {path : String} {documents : List (String × ConfigDocument)}
    (read : (prepare path).outcome? disk = some documents) : Registry.Consistent documents := by
  obtain ⟨tree, -, documentOf⟩ := document_of_prepare read
  intro file document file' document' mem mem' same
  have first := documentOf _ _ mem
  have second := documentOf _ _ mem'
  rw [find_congr same, second] at first
  cases first
  rfl

/-! ## Edited files -/

/-- The place and the document of a file. One that is gone has an empty document. -/
def fileAt (disk : FileTree) (path : String) : List PathComponent × ConfigDocument :=
  (Path.components (disk.normalize path),
    (documentOf? (disk.find (disk.normalize path))).join.getD .empty)

/-- Files of a directory were edited, made or removed, so that it has other documents now. They
are listed by some paths, each once; those that are not keep their documents. -/
structure Edit (directory : String) (old new : List (String × ConfigDocument)) (disk : FileTree)
    (order : List String) : Prop where
  stands : disk.contains directory
  apart : (order.map fun path => Path.components (disk.normalize path)).Nodup
  present : ∀ path ∈ order,
    (∃ file document, (file, document) ∈ new ∧ Path.same file (disk.normalize path)) ∨
      disk.find (disk.normalize path) = .error .missing
  stays : ∀ file document, (file, document) ∈ old →
    (∀ path ∈ order, ¬ Path.same file (disk.normalize path)) →
    ∃ file', (file', document) ∈ new ∧ Path.same file' file
  wasThere : ∀ file document, (file, document) ∈ new →
    (∀ path ∈ order, ¬ Path.same file (disk.normalize path)) →
    ∃ file', (file', document) ∈ old ∧ Path.same file' file

namespace Edit

variable {directory : String} {old new : List (String × ConfigDocument)} {order : List String}
  (edit : Edit directory old new disk order)
  (read : (prepare directory).outcome? disk = some new)

include edit read

/-- What a file comes to is its document in the directory, or nothing. -/
theorem document {path : String} (mem : path ∈ order) :
    (∃ file document, (file, document) ∈ new ∧ Path.same file (disk.normalize path) ∧
      documentOf? (disk.find (disk.normalize path)) = some (some document)) ∨
    disk.find (disk.normalize path) = .error .missing ∧
      ∀ file other, (file, other) ∈ new → ¬ Path.same file (disk.normalize path) := by
  obtain ⟨tree, isDisk, documentOf⟩ := document_of_prepare read
  obtain rfl := isDisk edit.stands
  rcases edit.present path mem with ⟨file, document, listed, same⟩ | missing
  · exact .inl ⟨file, document, listed, same, find_congr same ▸ documentOf file document listed⟩
  · refine .inr ⟨missing, fun file other listed same => ?_⟩
    have there := documentOf file other listed
    rw [find_congr same, missing] at there
    cases there

theorem read_file {path : String} (mem : path ∈ order) :
    (readConfig path).outcome? disk = some (disk.normalize path, (fileAt disk path).2) := by
  rw [(gives_readConfig path disk).outcome, fileAt]
  rcases edit.document read mem with ⟨_, document, -, -, there⟩ | ⟨missing, -⟩
  · rw [there]
    rfl
  · rw [missing]
    rfl

theorem edited : Registry.Edited old new (order.map (fileAt disk)) := by
  have places : (order.map (fileAt disk)).map (·.1) =
      order.map fun path => Path.components (disk.normalize path) := by
    rw [List.map_map]
    rfl
  have away {file : String} (absent : Path.components file ∉ (order.map (fileAt disk)).map (·.1)) :
      ∀ path ∈ order, ¬ Path.same file (disk.normalize path) := by
    intro path mem same
    rw [places] at absent
    exact absent (List.mem_map.2 ⟨path, mem, (by simpa [Path.same] using same : _ = _).symm⟩)
  refine ⟨places ▸ edit.apart, fun place document mem => ?_,
    fun file document mem absent => edit.stays file document mem (away absent),
    fun file document mem absent => edit.wasThere file document mem (away absent)⟩
  obtain ⟨path, mem', eq⟩ := List.mem_map.1 mem
  cases eq
  rcases edit.document read mem' with ⟨file, document, listed, same, there⟩ | ⟨missing, absent⟩
  · refine .inl ⟨file, ?_, by simpa [Path.same] using same⟩
    rw [there]
    exact listed
  · refine .inr ⟨by rw [missing]; rfl, fun file other listed isSame => ?_⟩
    exact absent file other listed (by simpa [Path.same] using isSame)

end Edit

end ScriptHost.Disk
