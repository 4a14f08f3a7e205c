import Mathlib.Data.List.Induction
import ScriptHost.Proofs.Project.Sessions
/-!
# Stopped schedules

As long as the schedules of a project are stopped, before the first start and after every
shutdown until the next start, none of its tasks is to run.

**Results.**
* `stopped_tasks_rest`: in every session, a task of a stopped project has no timer and fires
  nothing as time goes on, unless since it was stopped its file gave it other times.
* `retimed_task_fires`: the exception is real. A task that is given other times in place gets a
  timer and fires, although its project was never started.
-/
namespace ScriptHost.Project

/-- An event takes over a file that owns a task and gives it a valid entry with other times. -/
def Event.Retimes (event : Event) (project : Project) (id : String) : Prop :=
  ∃ file document, event.boardStep? project = some (.sync file document) ∧
    ScheduleTask.Retimed project.board.tasks file document id

/-- An event leaves a task of a stopped project without a timer that had none. -/
theorem Event.ended {engine : Engine} {clock : WallClock} {project : Project} {id : String}
    (orderly : project.board.Orderly engine clock) {event : Event}
    (stopped : (event.perform project).board.env.active = false)
    (ended : project.board.env.active = false → project.board.Ended id)
    (same : project.board.env.active = false → ¬ event.Retimes project id) :
    (event.perform project).board.Ended id := by
  rw [board_perform] at stopped ⊢
  cases step : event.boardStep? project with
  | none =>
    rw [step] at stopped
    exact ended stopped
  | some taken =>
    rw [step] at stopped
    refine ScheduleBoard.Step.ended orderly stopped ended fun before file document eq retimed => ?_
    exact same before ⟨file, document, eq ▸ step, retimed⟩

theorem session_append (project : Project) (first rest : List Event) :
    project.session (first ++ rest) = (project.session first).session rest :=
  List.foldl_append ..

theorem active_start (project : Project) :
    (Event.start.perform project).board.env.active = true := by
  rw [board_perform]
  exact congrArg (·.env.active) project.board.activate_eq

/-- The last event in a session that gave a task of the stopped project other times. -/
theorem ended_or_retimed {engine : Engine} {clock : WallClock} {project : Project} {id : String}
    (orderly : project.board.Orderly engine clock)
    (ended : project.board.env.active = false → project.board.Ended id) (events : List Event)
    (stopped : (project.session events).board.env.active = false) :
    (project.session events).board.Ended id ∨
      ∃ first event rest, events = first ++ event :: rest ∧ .start ∉ rest ∧
        (project.session first).board.env.active = false ∧
        event.Retimes (project.session first) id := by
  induction events using List.reverseRecOn with
  | nil => exact .inl (ended stopped)
  | append_singleton first event ih =>
    rw [session_append] at stopped ⊢
    have orderly' := Orderly.session orderly first
    by_cases retimed : (project.session first).board.env.active = false ∧
        event.Retimes (project.session first) id
    · exact .inr ⟨first, event, [], rfl, List.not_mem_nil, retimed⟩
    · by_cases rests : (project.session first).board.env.active = false →
          (project.session first).board.Ended id
      · exact .inl (Event.ended orderly' stopped rests fun before retimes =>
          retimed ⟨before, retimes⟩)
      · obtain ⟨before, waits⟩ := Classical.not_imp.1 rests
        obtain ⟨start, earlier, rest, rfl, unstarted, found⟩ := (ih before).resolve_left waits
        refine .inr ⟨start, earlier, rest ++ [event], by simp, fun mem => ?_, found⟩
        rcases List.mem_append.1 mem with mem | mem
        · exact unstarted mem
        · obtain rfl := List.mem_singleton.1 mem
          cases (active_start _).symm.trans stopped

/-- In every session of a loaded project, whenever its schedules are stopped: a task has no
timer, and fires nothing as time goes on, unless since they were stopped a file that owns the
task gave it a valid entry with other times. -/
theorem stopped_tasks_rest {root : String} {engine : Engine} {extend : Bool} {clock : WallClock}
    {disk : FileTree} {project : Project}
    (loaded : (load root engine extend clock).outcome? disk = some project) (events : List Event)
    (stopped : (project.session events).board.env.active = false)
    {id : String} {owned : Owned ScheduleTask}
    (there : (project.session events).board.tasks.get? id = some owned) :
    (owned.entity.timer = .ended ∧
        ∀ moment, owned.entity.runTo clock moment = (owned.entity, [])) ∨
      ∃ first event rest, events = first ++ event :: rest ∧ .start ∉ rest ∧
        (project.session first).board.env.active = false ∧
        event.Retimes (project.session first) id := by
  obtain ⟨orderly, -, rests⟩ := load_board loaded
  refine (ended_or_retimed orderly (fun _ => rests id) events stopped).imp_left fun ended => ?_
  have still := ended owned there
  exact ⟨still, ScheduleTask.runTo_of_ended still clock⟩

/-! ## A project with one task -/

/-- A project with a task that prints a line, and some more lines in its file. -/
def bell (lines : List String) : FileTree := .directory [("p", .directory [
  ("handlers", .directory []),
  ("schedules", .directory [
    ("a.toml", textFile ("[t]" :: "execute = \"print *tick\"" :: lines))])])]

/-- The file of the task gives it another time. -/
def retiming : Event :=
  .operation (.change (.schedules "/p/schedules/a.toml") (bell ["async = true"]))

theorem bell_rests_once_stopped : ∃ project owned,
    (load "/p" StandardActions.engine false (.standing 0)).outcome? (bell []) = some project ∧
      (project.session [.start, retiming, .shutdown]).board.tasks.get? "t" = some owned ∧
      owned.entity.timer = .ended ∧
      ∀ moment, owned.entity.runTo (.standing 0) moment = (owned.entity, []) := by
  have stops : ((load "/p" StandardActions.engine false (.standing 0)).outcome? (bell [])).any
      (fun project =>
        let after := (project.session [.start, retiming, .shutdown]).board
        !after.env.active && after.tasks.contains "t") = true := by decide +kernel
  obtain ⟨project, loaded, stops⟩ := (Option.any_eq_true _ _).1 stops
  simp only [Bool.and_eq_true, Bool.not_eq_true'] at stops
  obtain ⟨owned, there⟩ := Option.isSome_iff_exists.1 stops.2
  refine ⟨project, owned, loaded, there, ?_⟩
  refine (stopped_tasks_rest loaded _ stops.1 there).resolve_right ?_
  rintro ⟨first, event, rest, eq, -, stopped, file, document, step, -⟩
  match first, eq with
  | [], eq =>
    obtain ⟨rfl, -⟩ := List.cons.inj eq
    cases step
  | [_], eq =>
    obtain ⟨rfl, -⟩ := List.cons.inj eq
    cases (active_start project).symm.trans stopped
  | [_, _], eq =>
    obtain ⟨-, eq⟩ := List.cons.inj eq
    obtain ⟨-, eq⟩ := List.cons.inj eq
    obtain ⟨rfl, -⟩ := List.cons.inj eq
    cases step
  | _ :: _ :: _ :: _, eq => simp at eq

/-- A task that is given other times in place gets a timer and fires, although its project was
never started. -/
theorem retimed_task_fires : ∃ project,
    (load "/p" StandardActions.engine false (.standing 0)).outcome? (bell []) = some project ∧
      (project.session [retiming]).board.env.active = false ∧
      (∃ owned, (project.session [retiming]).board.tasks.get? "t" = some owned ∧
        owned.entity.timer ≠ .ended) ∧
      ((project.session [retiming]).moveTo 0).2 ≠ [] := by
  have fires : ((load "/p" StandardActions.engine false (.standing 0)).outcome? (bell [])).any
      (fun project =>
        let after := project.session [retiming]
        !after.board.env.active &&
          ((after.board.tasks.get? "t").any fun owned => owned.entity.timer.isRunning 0) &&
          !(after.moveTo 0).2.isEmpty) = true := by decide +kernel
  obtain ⟨project, loaded, fires⟩ := (Option.any_eq_true _ _).1 fires
  simp only [Bool.and_eq_true, Bool.not_eq_true'] at fires
  obtain ⟨⟨stopped, waits⟩, printed⟩ := fires
  obtain ⟨owned, there, waits⟩ := (Option.any_eq_true _ _).1 waits
  refine ⟨project, loaded, stopped, ⟨owned, there, fun ended => ?_⟩, fun nothing => ?_⟩
  · rw [ended] at waits
    cases waits
  · rw [nothing] at printed
    cases printed

end ScriptHost.Project
