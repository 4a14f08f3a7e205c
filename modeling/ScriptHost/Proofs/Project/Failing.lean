import ScriptHost.Proofs.Files.Directories
import ScriptHost.Proofs.Project.Converging
import ScriptHost.Proofs.Project.Dispatching
/-!
# Calls that fail

Loading, taking over a file and reloading, one statement after the other, on a project that is
changed in place. Such a call can fail at each of the files that it reads, and what it did until
then stays. But it changes nothing of the project before it has read the last of them, so a call
that fails leaves the whole project as it was.

**Results.**
* `Call.realizes`: statement by statement, a call comes to what the project makes of it.
* `failure_changes_nothing`: a call fails if a file that it has to read cannot be read, and
  when it fails it has made missing directories at most.
-/
namespace ScriptHost

/-! ## What is done to a disk -/

namespace Disk

variable {α β : Type} {disk after last : FileTree} {paths more : List String}

/-- Of some paths, in their order, those that led nowhere may have been made directories. -/
inductive Makes : List String → FileTree → FileTree → Prop where
  | nothing {disk : FileTree} : Makes [] disk disk
  | skip {path : String} {paths : List String} {disk after : FileTree}
    (rest : Makes paths disk after) : Makes (path :: paths) disk after
  | make {path : String} {paths : List String} {disk made after : FileTree}
    (missing : disk.find path = .error .missing) (isMade : disk.makeDirectory? path = some made)
    (rest : Makes paths made after) : Makes (path :: paths) disk after

namespace Makes

theorem refl (paths : List String) (disk : FileTree) : Makes paths disk disk := by
  induction paths with
  | nil => exact .nothing
  | cons path paths ih => exact .skip ih

theorem append (first : Makes paths disk after) (next : Makes more after last) :
    Makes (paths ++ more) disk last := by
  induction first with
  | nothing => exact next
  | skip _ ih => exact .skip (ih next)
  | make missing isMade _ ih => exact .make missing isMade (ih next)

theorem gains (makes : Makes paths disk after) : ∃ added, disk.Gains added after := by
  induction makes with
  | nothing => exact ⟨[], .of_outline fun _ => rfl⟩
  | skip _ ih => exact ih
  | make _ isMade _ ih =>
    obtain ⟨first, gains⟩ := FileTree.gains_makeDirectory? isMade
    obtain ⟨more, further⟩ := ih
    exact ⟨first ++ more, gains.trans further⟩

/-- In a directory that is there, the directories of these names at most are added. -/
theorem gains_join {root : String} {names : List String}
    (areNames : ∀ name ∈ names, Path.IsName name)
    {home : List String} (led : disk.resolve (Path.components root) = .ok home)
    (stands : disk.IsDirectory home) (makes : Makes (names.map (Path.join root)) disk after) :
    ∃ added, (∀ place ∈ added, ∃ name ∈ names, place = home ++ [name]) ∧
      disk.Gains added after := by
  induction names generalizing disk with
  | nil =>
    cases makes
    exact ⟨[], fun _ mem => absurd mem List.not_mem_nil, .of_outline fun _ => rfl⟩
  | cons name names ih =>
    have others := fun other mem => areNames other (.tail _ mem)
    cases makes with
    | skip rest =>
      obtain ⟨added, within, gains⟩ := ih others led stands rest
      refine ⟨added, fun place mem => ?_, gains⟩
      obtain ⟨name, mem', eq⟩ := within place mem
      exact ⟨name, .tail _ mem', eq⟩
    | make _ isMade rest =>
      obtain ⟨first, isFirst, gains⟩ :=
        FileTree.gains_join (areNames name (.head _)) led stands isMade
      obtain ⟨more, within, further⟩ :=
        ih others (gains.resolve nofun led) (gains.isDirectory stands) rest
      refine ⟨first ++ more, fun place mem => ?_, gains.trans further⟩
      rcases List.mem_append.1 mem with mem | mem
      · exact ⟨name, .head _, isFirst place mem⟩
      · obtain ⟨name, mem', eq⟩ := within place mem
        exact ⟨name, .tail _ mem', eq⟩

end Makes

section Touching

variable {σ : Type} {diskOf : σ → FileTree}

/-- A computation does nothing to a disk but make some directories. -/
def Touches (diskOf : σ → FileTree) (paths : List String)
    (x : ExceptT LoadError (StateM σ) α) : Prop :=
  ∀ s, Makes paths (diskOf s) (diskOf (x.run.run s).2)

theorem Touches.bind {x : ExceptT LoadError (StateM σ) α}
    {f : α → ExceptT LoadError (StateM σ) β} (first : Touches diskOf paths x)
    (next : ∀ a, Touches diskOf more (f a)) : Touches diskOf (paths ++ more) (x >>= f) := by
  intro s
  have makes := first s
  rcases eq : x.run.run s with ⟨problem | a, s'⟩
  · rw [eq] at makes
    rw [run_bind_error eq]
    exact makes.append (.refl more _)
  · rw [eq] at makes
    rw [run_bind_ok eq]
    exact makes.append (next a s')

end Touching

theorem Gives.touches {x : Disk α} {result : FileTree → Option α}
    (gives : ∀ disk, Gives x disk (result disk)) : Touches id [] x := by
  intro disk
  obtain ⟨made, eq, -⟩ := gives disk
  rw [eq]
  exact .nothing

theorem touches_ensureDirectory (path : String) : Touches id [path] (ensureDirectory path) := by
  intro disk
  obtain ⟨made, eq, present⟩ := gives_contains path disk
  unfold ensureDirectory
  cases made with
  | error problem =>
    rw [run_bind_error eq]
    exact .refl _ disk
  | ok known =>
    rw [run_bind_ok eq]
    cases known with
    | true => exact .refl _ disk
    | false =>
      simp only [Bool.false_eq_true, if_false]
      rw [run_get_bind]
      cases made : disk.makeDirectory? path with
      | none => exact .refl _ disk
      | some after => exact .make (missing_of_absent present.symm) made .nothing

theorem touches_prepare (path : String) : Touches id [path] (prepare path) :=
  (touches_ensureDirectory path).bind fun _ => Gives.touches (gives_readDirectory path)

/-- A configuration file right inside a directory cannot be read, or is no document. -/
def Broken (disk : FileTree) (directory : String) : Prop :=
  ∃ place name content, disk.resolve (Path.components directory) = .ok place ∧
    disk.get? (place ++ [name]) = some (.file content) ∧ isConfigName name ∧
    (∃ own, disk.resolve (Path.components (Path.join directory name)) = .ok own) ∧
    documentOf? (disk.find (disk.normalize (Path.join directory name))) = none

theorem documentOf?_bare (node : Except PathProblem FileNode) :
    documentOf? (node.map FileNode.bare) = documentOf? node := by
  rcases node with problem | node
  · rfl
  · cases node <;> rfl

/-- It does not help that there are more directories. -/
theorem Broken.of_gains {added : List (List String)} {directory : String}
    (broken : Broken disk directory) (gains : disk.Gains added after) : Broken after directory := by
  obtain ⟨place, name, content, led, there, config, ⟨own, led'⟩, unread⟩ := broken
  have again : after.resolve (Path.components (Path.join directory name)) = .ok own :=
    gains.resolve nofun led'
  have text : after.normalize (Path.join directory name) =
      disk.normalize (Path.join directory name) := by
    rw [FileTree.normalize, FileTree.normalize, led', again]
  refine ⟨place, name, content, gains.resolve nofun led, gains.file there, config, ⟨own, again⟩, ?_⟩
  rw [text, ← documentOf?_bare, gains.find, documentOf?_bare, unread]
  intro missing
  rw [missing] at unread
  cases unread

theorem mapM_eq_none {f : α → Option β} {list : List α} {a : α} (mem : a ∈ list)
    (none : f a = none) : list.mapM f = .none := by
  induction list with
  | nil => cases mem
  | cons first rest ih =>
    rw [List.mapM_cons]
    rcases List.mem_cons.1 mem with rfl | mem
    · rw [none]
      rfl
    · rw [ih mem]
      cases f first <;> rfl

theorem gives_ensureDirectory {path : String} {node : FileNode}
    (found : disk.find path = .ok node) :
    Gives (ensureDirectory path) disk (some ()) := by
  obtain ⟨made, eq, present⟩ := gives_contains path disk
  rw [found] at present
  cases made with
  | error problem => cases present
  | ok known =>
    cases present
    unfold Gives ensureDirectory
    rw [run_bind_ok eq]
    exact ⟨_, rfl, rfl⟩

/-- One file that cannot be read is the end of all reading. -/
theorem documentsOf?_eq_none {path name : String} {entries : List (String × FileNode)}
    (found : disk.find path = .ok (.directory entries)) (mem : name ∈ configNames entries)
    (none : listed? disk path name = none) : documentsOf? disk path = .none := by
  rw [documentsOf?, found]
  simp only
  rw [mapM_eq_none mem none]
  rfl

/-- A file that is no document keeps its directory from being read, whatever comes before it. -/
theorem Broken.unread {directory : String} (broken : Broken disk directory) :
    (prepare directory).outcome? disk = none := by
  obtain ⟨place, name, content, led, there, config, -, unread⟩ := broken
  obtain ⟨entries, stands⟩ := FileTree.isDirectory_iff.1
    (FileTree.IsDirectory.of_append (List.cons_ne_nil name []) (by rw [there]; nofun))
  have found := FileTree.find_eq_ok.2 ⟨place, led, stands⟩
  rw [FileTree.get?_append, stands, Option.bind_some, FileTree.get?_cons] at there
  obtain ⟨node, entry, isFile⟩ := Option.bind_eq_some_iff.1 there
  rw [FileTree.get?_nil] at isFile
  cases isFile
  have listed : name ∈ configNames entries := by
    rw [configNames, List.mem_mergeSort]
    exact List.mem_filterMap.2 ⟨_, Table.mem_of_lookup_eq_some entry, if_pos config⟩
  have gives := (gives_ensureDirectory found).bind fun _ => gives_readDirectory directory disk
  exact gives.outcome.trans (documentsOf?_eq_none found listed (by rw [listed?, unread]; rfl))

end Disk

/-! ## Changing a project in place -/

namespace Project

/-- A project, and the disk that its files are on. -/
structure Site where
  project : Project
  disk : FileTree

/-- A computation on a project and its disk that may fail. What it did until then stays. -/
abbrev Live (α : Type) := ExceptT LoadError (StateM Site) α

namespace Live

variable {α β : Type} {paths more : List String}

def onDisk (x : Disk α) : Live α := ExceptT.mk fun site =>
  ((x.run.run site.disk).1, { site with disk := (x.run.run site.disk).2 })

def change (f : Project → Project × α) : Live α := ExceptT.mk fun site =>
  (.ok (f site.project).2, { site with project := (f site.project).1 })

/-- The settings, all handlers and all schedules of a root are read, and then taken over one after
the other. -/
def reloadFrom (root : String) : Live Unit := do
  let settings ← onDisk (Disk.readSettings root)
  let handlers ← onDisk (Disk.prepare (Part.path .handlers root))
  let schedules ← onDisk (Disk.prepare (Part.path .schedules root))
  change fun project =>
    ({ project with graph := project.graph.registerOnly settings.dispatchers }, ())
  change fun project =>
    ({ project with board := { project.board with env.dateFormat := settings.dateFormat } }, ())
  change fun project => ({ project with settings }, ())
  let _ ← change fun project => project.replaceHandlers handlers
  let _ ← change fun project => project.replaceSchedules schedules

/-- All files of a part in a directory are read, and then put in the place of what there was. -/
def loadFrom (part : Part) (root : String) : Live LoadReport := do
  let documents ← onDisk (Disk.prepare (part.path root))
  change fun project => part.replace project documents

/-- A file of a part is read, and then taken over. -/
def syncFile (part : Part) (path : String) : Live SyncReport := do
  let (file, document) ← onDisk (Disk.readConfig path)
  change fun project => part.update project file document

/-! ### What stays -/

/-- A computation never changes the project. -/
def Reads (x : Live α) : Prop := ∀ site, (x.run.run site).2.project = site.project

/-- A computation never fails. -/
def Succeeds (x : Live α) : Prop := ∀ site, ∃ a, (x.run.run site).1 = .ok a

/-- Where a computation fails, the project is what it was. -/
def Atomic (x : Live α) : Prop :=
  ∀ site problem, (x.run.run site).1 = .error problem → (x.run.run site).2.project = site.project

theorem reads_onDisk (x : Disk α) : Reads (onDisk x) := fun _ => rfl

theorem succeeds_change (f : Project → Project × α) : Succeeds (change f) := fun _ => ⟨_, rfl⟩

theorem Succeeds.bind {x : Live α} {f : α → Live β} (first : Succeeds x)
    (next : ∀ a, Succeeds (f a)) : Succeeds (x >>= f) := by
  intro site
  obtain ⟨a, eq⟩ := first site
  rw [Disk.run_bind_ok (Prod.ext eq rfl)]
  exact next a _

theorem Succeeds.atomic {x : Live α} (succeeds : Succeeds x) : Atomic x := by
  intro site problem failed
  obtain ⟨a, eq⟩ := succeeds site
  cases failed.symm.trans eq

/-- What first reads and then is atomic is so as a whole. -/
theorem Reads.bind {x : Live α} {f : α → Live β} (reads : Reads x) (next : ∀ a, Atomic (f a)) :
    Atomic (x >>= f) := by
  intro site problem failed
  have kept := reads site
  rcases eq : x.run.run site with ⟨first | a, after⟩
  · rw [eq] at kept
    rw [Disk.run_bind_error eq]
    exact kept
  · rw [eq] at kept
    rw [Disk.run_bind_ok eq] at failed ⊢
    exact (next a after problem failed).trans kept

theorem touches_onDisk {x : Disk α} (touches : Disk.Touches id paths x) :
    Disk.Touches Site.disk paths (onDisk x) :=
  fun site => touches site.disk

theorem touches_change (f : Project → Project × α) : Disk.Touches Site.disk [] (change f) :=
  fun _ => .nothing

/-- What is done in place to a project comes to what the project becomes as a whole. -/
def Realizes (project : Project) (x : Live α) (y : Disk (Project × α)) : Prop :=
  ∀ disk, x.run.run ⟨project, disk⟩ =
    match y.run.run disk with
    | (.ok (after, a), disk) => (.ok a, ⟨after, disk⟩)
    | (.error problem, disk) => (.error problem, ⟨project, disk⟩)

theorem realizes_change (f : Project → Project × α) (project : Project) :
    Realizes project (change f) (pure (f project)) := fun _ => rfl

theorem Realizes.bind {project : Project} {x : Disk α} {f : α → Live β}
    {g : α → Disk (Project × β)} (next : ∀ a, Realizes project (f a) (g a)) :
    Realizes project (onDisk x >>= f) (x >>= g) := by
  intro disk
  have run : (onDisk x).run.run ⟨project, disk⟩ =
    ((x.run.run disk).1, ⟨project, (x.run.run disk).2⟩) := rfl
  rcases eq : x.run.run disk with ⟨problem | a, after⟩
  · rw [eq] at run
    rw [Disk.run_bind_error run, Disk.run_bind_error eq]
  · rw [eq] at run
    rw [Disk.run_bind_ok run, Disk.run_bind_ok eq]
    exact next a after

/-! ### The three kinds of calls -/

theorem realizes_loadFrom (part : Part) (project : Project) :
    Realizes project (loadFrom part project.root)
      (Disk.prepare (part.path project.root) >>= fun documents =>
        pure (part.replace project documents)) := by
  unfold loadFrom
  exact .bind fun documents =>
    realizes_change (fun project => part.replace project documents) project

theorem realizes_syncFile (part : Part) (path : String) (project : Project) :
    Realizes project (syncFile part path)
      (Disk.readConfig path >>= fun read => pure (part.update project read.1 read.2)) := by
  unfold syncFile
  exact .bind fun read =>
    realizes_change (fun project => part.update project read.1 read.2) project

theorem realizes_reloadFrom (project : Project) :
    Realizes project (reloadFrom project.root) ((·, ()) <$> project.reload) := by
  have taken (settings : Settings) (handlers schedules : List (String × ConfigDocument)) :
      Realizes project (do
        change fun project =>
          ({ project with graph := project.graph.registerOnly settings.dispatchers }, ())
        change fun project =>
          ({ project with
              board := { project.board with env.dateFormat := settings.dateFormat } }, ())
        change fun project => ({ project with settings }, ())
        let _ ← change fun project => project.replaceHandlers handlers
        let _ ← change fun project => project.replaceSchedules schedules)
      (pure (project.take (.everything settings handlers schedules), ())) := fun _ => rfl
  have read : (·, ()) <$> project.reload = (do
      let settings ← Disk.readSettings project.root
      let handlers ← Disk.prepare (Part.path .handlers project.root)
      let schedules ← Disk.prepare (Part.path .schedules project.root)
      pure (project.take (.everything settings handlers schedules), ())) := by
    unfold reload readEverything
    simp only [map_eq_pure_bind, bind_assoc, pure_bind]
    rfl
  rw [read]
  unfold reloadFrom
  exact .bind fun settings => .bind fun handlers => .bind fun schedules =>
    taken settings handlers schedules

theorem atomic_reloadFrom (root : String) : Atomic (reloadFrom root) :=
  (reads_onDisk _).bind fun _ => (reads_onDisk _).bind fun _ =>
    (reads_onDisk _).bind fun _ => Succeeds.atomic <|
      (succeeds_change _).bind fun _ => (succeeds_change _).bind fun _ =>
        (succeeds_change _).bind fun _ => (succeeds_change _).bind fun _ =>
          (succeeds_change _).bind fun _ _ => ⟨_, rfl⟩

theorem touches_reloadFrom (root : String) :
    Disk.Touches Site.disk [Part.path .handlers root, Part.path .schedules root]
      (reloadFrom root) :=
  (touches_onDisk (Disk.Gives.touches (Disk.gives_readSettings root))).bind fun _ =>
    (touches_onDisk (Disk.touches_prepare _)).bind fun _ =>
      (touches_onDisk (Disk.touches_prepare _)).bind fun _ =>
        (touches_change _).bind fun _ => (touches_change _).bind fun _ =>
          (touches_change _).bind fun _ => (touches_change _).bind fun _ =>
            (touches_change _).bind fun _ _ => .nothing

theorem atomic_loadFrom (part : Part) (root : String) : Atomic (loadFrom part root) :=
  (reads_onDisk _).bind fun _ => (succeeds_change _).atomic

theorem touches_loadFrom (part : Part) (root : String) :
    Disk.Touches Site.disk [part.path root] (loadFrom part root) :=
  (touches_onDisk (Disk.touches_prepare _)).bind fun _ => touches_change _

theorem atomic_syncFile (part : Part) (path : String) : Atomic (syncFile part path) :=
  (reads_onDisk _).bind fun _ => (succeeds_change _).atomic

theorem touches_syncFile (part : Part) (path : String) :
    Disk.Touches Site.disk [] (syncFile part path) :=
  (touches_onDisk (Disk.Gives.touches (Disk.gives_readConfig path))).bind fun _ => touches_change _

end Live

/-- What a project is told to take over from its files. -/
inductive Call where
  /-- The settings, all handlers and all schedules. -/
  | reload
  /-- All files of a part. -/
  | load (part : Part)
  /-- One file of a part. -/
  | sync (part : Part) (path : String)

namespace Call

/-- What a call returns. -/
def Report : Call → Type
  | reload => Unit
  | load _ => LoadReport
  | sync _ _ => SyncReport

/-- The directories that a call makes if they are missing. -/
def directories : Call → List String
  | reload => [handlersDirectory, schedulesDirectory]
  | load .handlers => [handlersDirectory]
  | load .schedules => [schedulesDirectory]
  | sync _ _ => []

theorem directories_areNames (call : Call) : ∀ name ∈ call.directories, Path.IsName name := by
  have handlers : Path.IsName handlersDirectory := ⟨by decide +kernel, by decide +kernel⟩
  have schedules : Path.IsName schedulesDirectory := ⟨by decide +kernel, by decide +kernel⟩
  match call with
  | reload => exact List.forall_mem_cons.2 ⟨handlers, List.forall_mem_singleton.2 schedules⟩
  | load .handlers => exact List.forall_mem_singleton.2 handlers
  | load .schedules => exact List.forall_mem_singleton.2 schedules
  | sync _ _ => exact fun _ mem => absurd mem List.not_mem_nil

/-- A call to a project with a root, statement by statement. -/
def performAt (root : String) : (call : Call) → Live call.Report
  | reload => Live.reloadFrom root
  | load part => Live.loadFrom part root
  | sync part path => Live.syncFile part path

/-- A call, statement by statement. -/
def perform (call : Call) : Live call.Report := do call.performAt (← get).project.root

/-- What a project as a whole becomes by a call. -/
def result : (call : Call) → Project → Disk (Project × call.Report)
  | reload, project => (·, ()) <$> project.reload
  | load .handlers, project => project.loadHandlers
  | load .schedules, project => project.loadSchedules
  | sync .handlers path, project => project.syncHandlers path
  | sync .schedules path, project => project.syncSchedules path

/-- A file that a call has to read cannot be read. -/
def Obstructed (project : Project) (disk : FileTree) : Call → Prop
  | reload => Disk.settingsOf? (disk.find (Path.join project.root settingsFile)) = none ∨
      Disk.Broken disk project.handlersPath ∨ Disk.Broken disk project.schedulesPath
  | load part => Disk.Broken disk (part.path project.root)
  | sync _ path => Disk.documentOf? (disk.find (disk.normalize path)) = none

theorem perform_run (call : Call) (site : Site) :
    call.perform.run.run site = (call.performAt site.project.root).run.run site :=
  Disk.run_get_bind _ _

theorem atomic (call : Call) : Live.Atomic call.perform := by
  intro site
  rw [perform_run]
  cases call with
  | reload => exact Live.atomic_reloadFrom _ site
  | load part => exact Live.atomic_loadFrom part _ site
  | sync part path => exact Live.atomic_syncFile part path site

theorem makes (call : Call) (site : Site) :
    Disk.Makes (call.directories.map (Path.join site.project.root)) site.disk
      (call.perform.run.run site).2.disk := by
  rw [perform_run]
  cases call with
  | reload => exact Live.touches_reloadFrom _ site
  | load part =>
    have touches := Live.touches_loadFrom part site.project.root site
    cases part <;> exact touches
  | sync part path => exact Live.touches_syncFile part path site

/-- Statement by statement, a call comes to what the project becomes as a whole. -/
theorem realizes (call : Call) (project : Project) :
    Live.Realizes project call.perform (call.result project) := by
  have atRoot : Live.Realizes project (call.performAt project.root) (call.result project) := by
    cases call with
    | reload => exact Live.realizes_reloadFrom project
    | load part =>
      have realizes := Live.realizes_loadFrom part project
      cases part <;> exact realizes
    | sync part path =>
      have realizes := Live.realizes_syncFile part path project
      cases part <;> exact realizes
  intro disk
  rw [perform_run]
  exact atRoot disk

theorem readEverything_unread {root : String} {disk : FileTree}
    (broken : Disk.settingsOf? (disk.find (Path.join root settingsFile)) = none ∨
      Disk.Broken disk (Part.path .handlers root) ∨ Disk.Broken disk (Part.path .schedules root)) :
    (readEverything root).outcome? disk = none := by
  rw [Option.eq_none_iff_forall_ne_some]
  intro all read
  obtain ⟨settings, after, eq, read⟩ := Disk.outcome?_bind_eq_some.1 read
  obtain ⟨made, eq', given⟩ := Disk.gives_readSettings root disk
  cases eq.symm.trans eq'
  obtain ⟨handlers, after, eq, read⟩ := Disk.outcome?_bind_eq_some.1 read
  obtain ⟨schedules, last, eq', -⟩ := Disk.outcome?_bind_eq_some.1 read
  rcases broken with unread | broken | broken
  · cases given.trans unread
  · have unread := broken.unread
    rw [Disk.outcome?] at unread
    have same := congrArg (fun result => result.1.toOption) eq
    cases unread.symm.trans same
  · have makes := Disk.touches_prepare (Path.join root handlersDirectory) disk
    rw [eq] at makes
    obtain ⟨added, gains⟩ := makes.gains
    have unread := (broken.of_gains gains).unread
    rw [Disk.outcome?] at unread
    have same := congrArg (fun result => result.1.toOption) eq'
    cases unread.symm.trans same

theorem outcome?_of_obstructed {call : Call} {project : Project} {disk : FileTree}
    (obstructed : call.Obstructed project disk) : (call.result project).outcome? disk = none := by
  have nothing {α β : Type} {x : Disk α} (unread : x.outcome? disk = none) (f : α → Disk β) :
      (x >>= f).outcome? disk = none := by
    rw [Option.eq_none_iff_forall_ne_some]
    intro b made
    obtain ⟨a, after, eq, -⟩ := Disk.outcome?_bind_eq_some.1 made
    rw [Disk.outcome?, eq] at unread
    cases unread
  cases call with
  | reload =>
    have unread : project.reload.outcome? disk = none :=
      nothing (readEverything_unread obstructed) _
    exact (Disk.outcome?_map ..).trans (by rw [unread]; rfl)
  | load part =>
    have unread := Disk.Broken.unread obstructed
    cases part <;> exact nothing unread _
  | sync part path =>
    have unread : (Disk.readConfig path).outcome? disk = none := by
      rw [(Disk.gives_readConfig path disk).outcome, obstructed]
      rfl
    cases part <;> exact nothing unread _

end Call

/-- Whatever state a project is in and whatever is on its disk: a reload, a load of a part or the
taking over of a file fails if the settings or a configuration file that it has to read cannot be
read or is no document, wherever that is among the others. And when it fails, for whatever reason,
the project is what it was, with its settings, dispatchers, handlers, schedules and timers, and
on the disk there are at most more directories, namely those of the handlers and of the schedules
that were missing. -/
theorem failure_changes_nothing (call : Call) (project : Project) (disk : FileTree) :
    (call.Obstructed project disk →
      ∃ problem, (call.perform.run.run ⟨project, disk⟩).1 = .error problem) ∧
    ∀ problem after, call.perform.run.run ⟨project, disk⟩ = (.error problem, after) →
      after.project = project ∧
      Disk.Makes (call.directories.map (Path.join project.root)) disk after.disk ∧
      (∃ added, disk.Gains added after.disk) ∧
      ∀ home, disk.resolve (Path.components project.root) = .ok home → disk.IsDirectory home →
        ∃ added, (∀ place ∈ added, ∃ name ∈ call.directories, place = home ++ [name]) ∧
          disk.Gains added after.disk := by
  refine ⟨fun obstructed => ?_, fun problem after failed => ?_⟩
  · have unread := Call.outcome?_of_obstructed obstructed
    have realizes := call.realizes project disk
    rw [Disk.outcome?] at unread
    rcases eq : (call.result project).run.run disk with ⟨problem | ⟨_, _⟩, after⟩
    · rw [eq] at realizes
      exact ⟨problem, congrArg (·.1) realizes⟩
    · rw [eq] at unread
      cases unread
  · have same := call.atomic ⟨project, disk⟩ problem (congrArg (·.1) failed)
    have makes := call.makes ⟨project, disk⟩
    rw [failed] at same makes
    refine ⟨same, makes, makes.gains, fun home led stands => ?_⟩
    exact makes.gains_join call.directories_areNames led stands

/-- A disk without a directory of handlers, on which the second file of schedules is no document. -/
def unfinished : FileTree := .directory [("p", .directory [("schedules", .directory [
  ("a.toml", textFile ["[t]"]), ("b.toml", textFile ["[oops"])])])]

theorem unfinished_broken : Disk.Broken unfinished (Path.join "/p" schedulesDirectory) := by
  refine ⟨["p", "schedules"], "b.toml", "[oops\n".toUTF8, by decide +kernel, by rfl,
    by decide +kernel, ⟨["p", "schedules", "b.toml"], by decide +kernel⟩, ?_⟩
  exact Option.isNone_iff_eq_none.1 (by decide +kernel)

/-- A project with three handlers is reloaded from such a disk. -/
theorem failure_changes_nothing_trio : ∃ project problem after,
    (load "/p" StandardActions.engine false (.standing 0)).outcome? trio = some project ∧
    Call.reload.perform.run.run ⟨project, unfinished⟩ = (.error problem, after) ∧
    after.project = project ∧ ∃ added,
      (∀ place ∈ added, place = ["p", "handlers"] ∨ place = ["p", "schedules"]) ∧
      unfinished.Gains added after.disk := by
  obtain ⟨t, loaded, -⟩ := trio_parts
  have loaded' : (load "/p" StandardActions.engine false (.standing 0)).outcome? trio =
      some t.project := by
    rw [← Trace.project_load, Disk.outcome?_map, loaded, Option.map_some]
  have root : t.project.root = "/p" := (Lasting.load loaded').place
  obtain ⟨fails, changes⟩ := failure_changes_nothing .reload t.project unfinished
  obtain ⟨problem, failed⟩ :=
    fails (.inr (.inr (by rw [schedulesPath, root]; exact unfinished_broken)))
  have ran : Call.reload.perform.run.run ⟨t.project, unfinished⟩ =
      (.error problem, (Call.reload.perform.run.run ⟨t.project, unfinished⟩).2) :=
    Prod.ext failed rfl
  obtain ⟨same, -, -, onlyDirectories⟩ := changes problem _ ran
  obtain ⟨added, within, gains⟩ := onlyDirectories ["p"] (by rw [root]; decide +kernel) (by rfl)
  refine ⟨t.project, problem, _, loaded', ran, same, added, fun place mem => ?_, gains⟩
  obtain ⟨name, listed, rfl⟩ := within place mem
  rcases List.mem_cons.1 listed with rfl | listed
  · exact .inl rfl
  · rw [List.mem_singleton.1 listed]
    exact .inr rfl

end Project
end ScriptHost
