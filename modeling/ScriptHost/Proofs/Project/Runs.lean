import ScriptHost.Proofs.Project.Forgetting
import ScriptHost.Proofs.Project.Refilling
/-!
# Runs of a project

Once it is loaded, a project goes from operation to operation: its files change and are taken
over, it is loaded anew, and whoever holds a handler gives it another entry or unbinds it.

**Operations.** An operation reads what it needs from the files as they are at that moment,
which can be anything, and then takes a `Step`. If reading fails it does nothing.

**Traces.** A trace is a project with all the states that its dispatch graph went through, the
latest first, those inside of operations among them. Only by them is it known since when a
handler is bound to a dispatcher.

**Results.**
* `Step.keeps`: what holds of a project at rest holds again after every step.
* `Steady.load`, `Steady.run`: it holds when a project has been loaded and after every run of
  operations.
* `stays_run`: over a whole run, a program stays among the handlers that it was made of as long
  as no other is bound.
-/
namespace ScriptHost

open DispatchGraph

/-- What a computation on a file tree comes to, unless it fails. -/
def Disk.outcome? {α : Type} (x : Disk α) (disk : FileTree) : Option α :=
  (x.run.run disk).1.toOption

theorem Disk.outcome?_map {α β : Type} (f : α → β) (x : Disk α) (disk : FileTree) :
    Disk.outcome? (f <$> x) disk = (x.outcome? disk).map f := by
  have eq : (f <$> x).run.run disk = ((x.run.run disk).1.map f, (x.run.run disk).2) := by
    simp [ExceptT.run_map]
    rfl
  rw [outcome?, eq, outcome?]
  cases (x.run.run disk).1 <;> rfl

namespace Project

def textFile (lines : List String) : FileNode := .file (String.join (lines.map (· ++ "\n"))).toUTF8

/-! ## Operations -/

/-- What may happen to a project once it is loaded. -/
inductive Operation where
  /-- A change of its files is taken over. -/
  | change (change : FileChange) (disk : FileTree)
  /-- Everything is loaded anew. -/
  | reload (disk : FileTree)
  /-- One file of handlers is taken over, whatever the settings say. -/
  | sync (path : String) (disk : FileTree)
  /-- All handlers are loaded anew. -/
  | loadHandlers (disk : FileTree)
  /-- All handlers are let go. -/
  | clear
  /-- A handler gets a new entry. -/
  | update (h : Key .handler) (entry : ConfigEntry)
  /-- A handler leaves all its dispatchers. -/
  | unbind (h : Key .handler)

def Operation.perform (op : Operation) (project : Project) : Project :=
  match op with
  | .change file disk => ((project.applyChange file).run disk).1
  | .reload disk => (project.reload.outcome? disk).getD project
  | .sync path disk => ((project.syncHandlers path).outcome? disk).elim project (·.1)
  | .loadHandlers disk => (project.loadHandlers.outcome? disk).elim project (·.1)
  | .clear => project.clearHandlers
  | .update h entry => { project with graph := (project.graph.update h entry).1 }
  | .unbind h => { project with graph := project.graph.unbindAll h }

def run (project : Project) (ops : List Operation) : Project :=
  ops.foldl (fun project op => op.perform project) project

/-- What an operation does once it has read what it needs. -/
inductive Step where
  | take (update : Update)
  | replace (documents : List (String × ConfigDocument))
  | clear
  | update (h : Key .handler) (entry : ConfigEntry)
  | unbind (h : Key .handler)

namespace Step

def perform (step : Step) (project : Project) : Project :=
  match step with
  | .take whole => project.take whole
  | .replace documents => (project.replaceHandlers documents).1
  | .clear => project.clearHandlers
  | .update h entry => { project with graph := (project.graph.update h entry).1 }
  | .unbind h => { project with graph := project.graph.unbindAll h }

/-- Whether all handlers are made anew. -/
def remakesAll : Step → Bool
  | .take (.everything ..) | .replace _ => true
  | _ => false

/-- The states that the dispatch graph goes through in a step, the latest first. -/
def graphs (step : Step) (project : Project) : List DispatchGraph :=
  match step with
  | .take (.everything settings handlers _) =>
    let start := project.graph.registerOnly settings.dispatchers
    (project.handlers.load Handler.kind.recorded handlers (start, [start])).surroundings.2
  | .take (.handlers file document) =>
    (project.handlers.sync Handler.kind.recorded file document (project.graph, [])).surroundings.2
  | .take (.schedules ..) => []
  | .replace documents =>
    (project.handlers.load Handler.kind.recorded documents (project.graph, [])).surroundings.2
  | .clear => (Registry.retireAll Handler.kind.recorded project.handlers (project.graph, [])).2
  | .update h entry => [(project.graph.update h entry).1]
  | .unbind h => [project.graph.unbindAll h]

end Step

namespace Operation

/-- The step that an operation takes, unless it cannot read what it needs or has nothing to do. -/
def step? (op : Operation) (project : Project) : Option Step :=
  match op with
  | .change file disk => ((project.readChange file).outcome? disk).join.map .take
  | .reload disk => ((readEverything project.root).outcome? disk).map fun (settings, handlers,
    schedules) =>
      .take (.everything settings handlers schedules)
  | .sync path disk => ((Disk.readConfig path).outcome? disk).map fun (file, document) =>
    .take (.handlers file document)
  | .loadHandlers disk => ((Disk.prepare project.handlersPath).outcome? disk).map .replace
  | .clear => some .clear
  | .update h entry => some (.update h entry)
  | .unbind h => some (.unbind h)

theorem perform_eq (op : Operation) (project : Project) :
    op.perform project = (op.step? project).elim project (·.perform project) := by
  cases op with
  | change file disk =>
    simp only [perform, applyChange, step?, Disk.outcome?, StateT.run_bind]
    obtain ⟨_ | _ | update, after⟩ := (project.readChange file).run.run disk <;> rfl
  | reload disk =>
    have eq : project.reload = (fun r =>
      project.take (.everything r.1 r.2.1 r.2.2)) <$> readEverything project.root := rfl
    rw [perform, eq, Disk.outcome?_map, step?]
    cases (readEverything project.root).outcome? disk <;> rfl
  | sync path disk =>
    have eq : project.syncHandlers path = (fun r =>
      project.updateHandlers r.1 r.2) <$> Disk.readConfig path := rfl
    rw [perform, eq, Disk.outcome?_map, step?]
    cases (Disk.readConfig path).outcome? disk <;> rfl
  | loadHandlers disk =>
    have eq : project.loadHandlers =
        project.replaceHandlers <$> Disk.prepare project.handlersPath := rfl
    rw [perform, eq, Disk.outcome?_map, step?]
    cases (Disk.prepare project.handlersPath).outcome? disk <;> rfl
  | clear => rfl
  | update h entry => rfl
  | unbind h => rfl

def graphs (op : Operation) (project : Project) : List DispatchGraph :=
  (op.step? project).elim [] (·.graphs project)

def remakesAll (op : Operation) (project : Project) : Bool := (op.step? project).any (·.remakesAll)

end Operation

/-- The states that the dispatch graph goes through in some operations, the latest first. -/
def passed (project : Project) : List Operation → List DispatchGraph
  | [] => []
  | op :: rest => (op.perform project).passed rest ++ op.graphs project

/-! ## Traces -/

/-- A project with the states that its dispatch graph went through, the latest first. -/
structure Trace where
  project : Project
  graphs : List DispatchGraph

namespace Trace

/-- A project is loaded: before, its dispatch graph was empty. -/
def load (root : String) (engine : Engine) (extend : Bool) (clock : WallClock) : Disk Trace := do
  let (settings, handlers, schedules) ← readEverything root
  let engine := if extend then settings.namespaces.foldl Engine.register engine else engine
  let start := blank root engine clock settings
  let step := Step.take (.everything settings handlers schedules)
  return ⟨step.perform start, step.graphs start ++ [start.graph]⟩

theorem project_load (root : String) (engine : Engine) (extend : Bool) (clock : WallClock) :
    project <$> load root engine extend clock = Project.load root engine extend clock := by
  simp only [load, Project.load, map_bind, map_pure]
  rfl

end Trace

/-! ## What holds between operations -/

/-- What holds of a project at rest and of its past. -/
structure Steady (asNamed : Prop) (t : Trace) : Prop where
  inOrder : InOrder asNamed t.project.handlers t.project.graph
  fresh : ∀ d, t.project.graph.Fresh d
  recorded : Recorded t.graphs t.project.graph []

section

variable {asNamed : Prop} {t : Trace}

theorem Steady.kept (h : Steady asNamed t) :
    Kept asNamed t.project.graph t.graphs t.project.handlers (t.project.graph, []) :=
  ⟨h.inOrder, h.fresh, h.recorded, fun _ _ among _ => among⟩

theorem Steady.single (h : Steady asNamed t) (k : Key .handler) {after : DispatchGraph}
    (unknown : t.project.graph.handlers.get? k = none → after = t.project.graph)
    (known : ∀ {id owned}, t.project.handlers.get? id = some owned → owned.entity = k →
      Kept asNamed t.project.graph t.graphs t.project.handlers (after, [after])) :
    Kept asNamed t.project.graph t.graphs t.project.handlers (after, [after]) := by
  cases found : t.project.graph.handlers.get? k with
  | none =>
    rw [unknown found]
    exact h.kept.unchanged
  | some handler =>
    obtain ⟨owned, there, entity⟩ := h.inOrder.owned found
    exact known there entity

theorem Steady.loads (h : Steady asNamed t) (now : Prop) {start : DispatchGraph}
    {states : List DispatchGraph} (registers : Registers t.project.graph start)
    (recorded : Recorded t.graphs start states) (documents : List (String × ConfigDocument)) :
    let l := t.project.handlers.load Handler.kind documents start
    let passed :=
      (t.project.handlers.load Handler.kind.recorded documents (start, states)).surroundings.2
    Kept now t.project.graph t.graphs l.registry (l.surroundings, passed) ∧
      ∀ d, l.surroundings.Among d (· ∈ l.surroundings.memberIds d) := by
  rw [← Registry.load_recorded Handler.kind _ _ (start, states)]
  exact load_keeps h.inOrder h.fresh registers recorded documents

/-- What holds of a project at rest holds again after every step; that handlers are bound as
named, unless one is unbound by itself. -/
theorem Step.keeps (h : Steady asNamed t) (step : Step)
    (allowed : asNamed → ∀ k, step ≠ .unbind k) :
    Kept asNamed t.project.graph t.graphs (step.perform t.project).handlers
      ((step.perform t.project).graph, step.graphs t.project) := by
  cases step with
  | take update =>
    cases update with
    | everything settings handlers schedules =>
      have registers := Registers.registerOnly t.project.graph settings.dispatchers
      exact (h.loads asNamed registers (h.recorded.cons fun d =>
        .of_eq (registers.memberIds d)) handlers).1
    | handlers file document =>
      simp only [perform, Project.take, updateHandlers]
      rw [← Registry.sync_recorded Handler.kind _ _ _ (t.project.graph, [])]
      exact sync_keeps h.kept file document
    | schedules file document => exact h.kept
  | replace documents => exact (h.loads asNamed (.refl _) h.recorded documents).1
  | clear =>
    have emptied := Registry.retireAll_keeps (s := (t.project.graph, [])) retired_keeps h.kept
    simp only [perform, clearHandlers, Registry.clear]
    rw [← Registry.retireAll_recorded Handler.kind _ (t.project.graph, [])]
    exact emptied
  | update k entry =>
    refine h.single k (fun unknown => ?_) fun {id owned} there entity => ?_
    · simp only [perform, DispatchGraph.update, unknown]
    · subst entity
      have kept : Kept asNamed t.project.graph t.graphs _
          (_, [(t.project.graph.update owned.entity entry).1]) :=
        updated_keeps h.kept there
      have same : Table.insert t.project.handlers id owned = t.project.handlers :=
        Table.insert_eq_self there
      exact same ▸ kept
  | unbind k =>
    refine h.single k (fun unknown => ?_) fun {id owned} there entity => ?_
    · simp only [perform, DispatchGraph.unbindAll, unknown]
    · subst entity
      exact unbound_keeps h.kept (fun is => allowed is owned.entity rfl) there

/-- Where all handlers were made anew, no routine of another handler is left. -/
theorem Step.clean (h : Steady asNamed t) {step : Step} (all : step.remakesAll)
    (d : Key .dispatcher) :
    (step.perform t.project).graph.Among d (· ∈ (step.perform t.project).graph.memberIds d) := by
  cases step with
  | take update =>
    cases update with
    | everything settings handlers schedules =>
      have registers := Registers.registerOnly t.project.graph settings.dispatchers
      exact (h.loads asNamed registers (h.recorded.cons fun d =>
        .of_eq (registers.memberIds d)) handlers).2 d
    | handlers file document => cases all
    | schedules file document => cases all
  | replace documents => exact (h.loads asNamed (.refl _) h.recorded documents).2 d
  | clear => cases all
  | update k entry => cases all
  | unbind k => cases all

theorem Operation.keeps (h : Steady asNamed t) (op : Operation)
    (allowed : asNamed → ∀ k, op ≠ .unbind k) :
    Kept asNamed t.project.graph t.graphs (op.perform t.project).handlers
      ((op.perform t.project).graph, op.graphs t.project) := by
  rw [perform_eq, graphs]
  cases taken : op.step? t.project with
  | none => exact h.kept
  | some step =>
    refine step.keeps h fun is k eq => allowed is k ?_
    subst eq
    cases op <;> simp_all [step?]

theorem Operation.clean (h : Steady asNamed t) {op : Operation} (all : op.remakesAll t.project)
    (d : Key .dispatcher) :
    (op.perform t.project).graph.Among d (· ∈ (op.perform t.project).graph.memberIds d) := by
  obtain ⟨step, taken, all⟩ := (Option.any_eq_true _ _).1 all
  rw [perform_eq, taken]
  exact Step.clean h all d

theorem Steady.perform (h : Steady asNamed t) (op : Operation)
    (allowed : asNamed → ∀ k, op ≠ .unbind k) :
    Steady asNamed ⟨op.perform t.project, op.graphs t.project ++ t.graphs⟩ := by
  have kept := op.keeps h allowed
  exact ⟨kept.inOrder, kept.fresh, kept.recorded⟩

/-- The empty graph at which a load starts. -/
theorem Steady.blank (root : String) (engine : Engine) (clock : WallClock) (settings : Settings) :
    Steady asNamed ⟨Project.blank root engine clock settings, [{ engine }]⟩ := by
  have nobody (d : Key .dispatcher) : ({ engine } : DispatchGraph).memberIds d = [] := rfl
  refine ⟨⟨⟨⟨?_, fun _ => .nil, ?_, ?_, ?_⟩, ?_, ?_⟩, ?_, ?_⟩, fun d known => absurd rfl known, [],
    rfl, fun d => ?_⟩
  · exact nofun
  · exact nofun
  · exact ⟨nofun, nofun⟩
  · exact nofun
  · exact nofun
  · exact nofun
  · exact nofun
  · exact nofun
  · rw [Aligned, Project.blank, nobody]
    exact .nil

theorem Steady.load {root : String} {engine : Engine} {extend : Bool} {clock : WallClock}
    {disk : FileTree} (loaded : (Trace.load root engine extend clock).outcome? disk = some t) :
    Steady asNamed t := by
  let engine (settings : Settings) :=
    if extend then settings.namespaces.foldl Engine.register engine else engine
  have eq : Trace.load root _ extend clock = (fun r =>
      let start := Project.blank root (engine r.1) clock r.1
      let step := Step.take (.everything r.1 r.2.1 r.2.2)
      ⟨step.perform start, step.graphs start ++ [start.graph]⟩) <$> readEverything root := rfl
  rw [eq, Disk.outcome?_map, Option.map_eq_some_iff] at loaded
  obtain ⟨r, -, rfl⟩ := loaded
  have steady : Steady asNamed ⟨_, _⟩ := blank root (engine r.1) clock r.1
  have kept := (Step.take (.everything r.1 r.2.1 r.2.2)).keeps steady nofun
  exact ⟨kept.inOrder, kept.fresh, kept.recorded⟩

/-- A steady project stays so, whatever happens. -/
theorem Steady.run (h : Steady asNamed t) (ops : List Operation)
    (allowed : asNamed → ∀ k, .unbind k ∉ ops) :
    Steady asNamed ⟨t.project.run ops, t.project.passed ops ++ t.graphs⟩ := by
  induction ops generalizing t with
  | nil => exact h
  | cons op rest ih =>
    have h' := h.perform op fun is k eq => allowed is k (eq ▸ .head _)
    rw [passed, List.append_assoc]
    exact ih h' fun is k mem => allowed is k (.tail _ mem)

theorem passed_append (first rest : List Operation) : ∀ project : Project,
    project.passed (first ++ rest) = (project.run first).passed rest ++ project.passed first := by
  induction first with
  | nil => exact fun project => (List.append_nil _).symm
  | cons op ops ih =>
    intro project
    rw [List.cons_append, passed, ih, passed, List.append_assoc]
    rfl

/-- The state at the end of a run is the last that was passed, or nothing changed. -/
theorem graph_run_mem (h : Steady asNamed t) (ops : List Operation)
    (allowed : asNamed → ∀ k, .unbind k ∉ ops) :
    (t.project.run ops).graph ∈ t.project.passed ops ∨
      (t.project.run ops).graph = t.project.graph := by
  obtain ⟨older, past, -⟩ := h.recorded
  obtain ⟨older', past', -⟩ := (h.run ops allowed).recorded
  rw [List.nil_append] at past past'
  rw [past] at past'
  cases passed : t.project.passed ops with
  | nil =>
    rw [passed] at past'
    exact .inr (List.cons.inj past').1.symm
  | cons g rest =>
    rw [passed] at past'
    exact .inl ((List.cons.inj past').1 ▸ .head _)

/-- Over a whole run a program stays among the handlers that it was made of as long as no other
is bound. -/
theorem stays_run (h : Steady False t) (ops : List Operation) :
    Stays t.project.graph (t.project.run ops).graph (t.project.passed ops) := by
  induction ops generalizing t with
  | nil => exact fun _ _ among _ => among
  | cons op rest ih =>
    intro d P among apart
    have first := (op.keeps h False.elim).stays d P among fun x mem =>
      apart x (List.mem_append_right _ mem)
    exact ih (h.perform op False.elim) d P first fun x mem => apart x (List.mem_append_left _ mem)

end
end Project
end ScriptHost
