import ScriptHost.Proofs.Assembly.Printed
import ScriptHost.Proofs.Schedule.Tasks
/-!
# Tasks that report themselves

A task that has no script runs a routine that says so, with the name of the task in it. The name is
written into the source of that routine with a backslash before each quote. That is enough for
quotes, for braces and for what looks like a comment, since all of these stand between quotes then.
It is not enough for backslashes, which stand as they are and are taken for the start of an escape,
nor for line breaks, behind which the source is indented.

**Results.**
* `ScheduleTask.placeholderScript_eq`: what such a task runs is a routine that prints its `notice`.
* `task_reports_itself`: it prints that and nothing else exactly if there is neither a backslash nor
  a line break in its name; `backslash_is_not_reported` is a name that it does not print.
-/
namespace ScriptHost

open Scanner

/-! ## Notices -/

namespace ScheduleTask

variable {env : ScheduleEnvironment} {id : String} {entry : ConfigEntry} {task : ScheduleTask}

def noticeFront : List Char := ['s', 'c', 'h', 'e', 'd', 'u', 'l', 'e', ' ']

def noticeBack : List Char :=
  [' ', 'h', 'a', 's', ' ', 'n', 'o', ' ', 'e', 'x', 'e', 'c', 'u', 't', 'i', 'o', 'n']

/-- What a task without a script is to print. -/
def notice (id : String) : List Char := noticeFront ++ id.toList ++ noticeBack

theorem mem_notice {c : Char} (other : c = '\\' ∨ c = '\n') : c ∈ notice id ↔ c ∈ id.toList := by
  have front : c ∉ noticeFront := by rcases other with rfl | rfl <;> decide
  have back : c ∉ noticeBack := by rcases other with rfl | rfl <;> decide
  rw [notice, List.mem_append, List.mem_append, or_iff_left back, or_iff_right front]

theorem ofList_notice (id : String) :
    String.ofList (notice id) = "schedule " ++ id ++ " has no execution" := by
  rw [← String.toList_inj, String.toList_ofList, String.toList_append, String.toList_append]
  rfl

theorem placeholderScript_eq (id : String) : placeholderScript id = printing (notice id) := by
  have front : escapeQuotes noticeFront = noticeFront := escapeQuotes_eq_self (by decide)
  have back : escapeQuotes noticeBack = noticeBack := escapeQuotes_eq_self (by decide)
  have first : "print *\"schedule ".toList = printMark ++ '"' :: noticeFront := by decide
  have last : " has no execution\"".toList = noticeBack ++ ['"'] := by decide
  rw [← String.toList_inj]
  show ("print *\"schedule " ++ String.ofList (escapeQuotes id.toList) ++
    " has no execution\"").toList = _
  rw [String.toList_append, String.toList_append, first, last, String.toList_ofList, printing,
    String.toList_ofList, notice, escapeQuotes_append, escapeQuotes_append, front, back]
  simp only [List.append_assoc, List.cons_append]

theorem notice_concat (id : String) : ∃ front, notice id = front ++ ['n'] := by
  refine ⟨noticeFront ++ id.toList ++ noticeBack.dropLast, ?_⟩
  rw [notice, List.append_assoc (noticeFront ++ id.toList)]
  rfl

/-- A notice is laid as it is exactly if the name in it is one line. -/
theorem laid_notice_iff (id : String) : laid 1 false [] (notice id) = notice id ↔
    '\n' ∉ id.toList := by
  obtain ⟨front, eq⟩ := notice_concat id
  have same : '\n' ∈ front ↔ '\n' ∈ notice id := by simp [eq]
  rw [← mem_notice (.inr rfl), ← same, eq]
  exact laid_eq_self_iff (by decide) Nat.one_pos

/-- Before a quote it is laid as it is by itself. -/
theorem laid_notice_quote (id : String) :
    laid 1 false [] (notice id ++ ['"']) = laid 1 false [] (notice id) ++ ['"'] := by
  obtain ⟨front, eq⟩ := notice_concat id
  rw [eq, List.append_assoc, List.singleton_append, laid_append (by decide)]
  rfl

theorem create_program (made : create env id entry = .ok task) :
    task.program = (task.source.compile env.engine).toOption := by
  obtain ⟨config, -, rfl⟩ := create_ok_iff.1 made
  rw [recompile_eq]
  exact Option.or_none

/-- Without a script a task runs the routine that prints its notice. -/
theorem source_compile {program : Program} (unscripted : task.config.execute = none) :
    task.source.compile env.engine = .ok program ↔
      env.engine.compile (assembleRoutine mainRoutine (printing (notice task.id)))
          task.config.namespaces = .ok program.unit ∧
        program.entries = task.source.entries := by
  rw [ProgramSource.compile_ok_iff, ← placeholderScript_eq]
  simp only [source, unscripted, Option.getD_none]

/-! ## Reports -/

/-- If the routine ends after its notice, a task has a program, and that prints the notice as it is
read. -/
theorem reports_read (made : create env id entry = .ok task)
    (unscripted : task.config.execute = none)
    (known : ∀ space ∈ task.config.namespaces, env.engine.hasNamespace space)
    {body inside : List Char} (whole : afterQuote (notice id) = body ++ '"' :: routineEnd)
    (read : unquote false body = some inside) :
    ∃ program, task.program = some program ∧ program.unit.invoke mainRoutine {} =
      (.ok .null, { output := #[.line (String.ofList inside)] }) := by
  have named := (create_settled made).1.named
  obtain ⟨unit, compiled, runs⟩ := prints_read known whole read
  refine ⟨⟨unit, task.source.entries⟩, ?_, runs {}⟩
  rw [create_program made, toOption_eq_some, source_compile unscripted, named]
  exact ⟨compiled, rfl⟩

theorem output_of_program {program : Program} {result : Except ScriptError Value}
    {context : Context} (some : task.program = some program)
    (runs : program.unit.invoke mainRoutine {} = (result, context)) :
    task.output = context.output := by
  rw [output, some]
  simp only [runs]

/-- A task that prints its notice as it is has no backslash in its id. -/
theorem not_mem_of_reports (made : create env id entry = .ok task)
    (unscripted : task.config.execute = none)
    (reports : task.output = #[.line (String.ofList (notice id))]) : '\\' ∉ id.toList := by
  have named := (create_settled made).1.named
  have compiles := create_program made
  rw [output] at reports
  split at reports
  · cases reports
  · rename_i program some
    rw [some, eq_comm, toOption_eq_some, source_compile unscripted, named] at compiles
    obtain ⟨body, behind, inside, whole, read, first⟩ := printed_first compiles.1 {}
    rw [Context.PrintsOn, reports] at first
    have line : Output.line (String.ofList inside) = .line (String.ofList (notice id)) :=
      (List.cons_prefix_cons.1 first).1
    injection line with line
    rw [String.ofList_inj.1 line] at read
    exact mt (mem_notice (.inl rfl)).2 (not_mem_of_printed whole read)

theorem create_empty (env : ScheduleEnvironment) (id : String) :
    ∃ task, create env id .empty = .ok task ∧ task.config.execute = none ∧
      task.config.namespaces = [coreNamespace] := by
  refine ⟨_, create_ok_iff.2 ⟨{}, rfl, rfl⟩, ?_⟩
  rw [recompile_eq]
  exact ⟨rfl, rfl⟩

end ScheduleTask

open ScheduleTask

/-- A task that has no script reports itself by name if its id is one line and has no backslash,
and only then. Without a backslash its program is there and ends without an error, and what it
prints is the notice as it is laid. -/
theorem task_reports_itself {env : ScheduleEnvironment} {id : String} {entry : ConfigEntry}
    {task : ScheduleTask} (made : ScheduleTask.create env id entry = .ok task)
    (unscripted : task.config.execute = none)
    (known : ∀ space ∈ task.config.namespaces, env.engine.hasNamespace space) :
    (task.output = #[.line ("schedule " ++ id ++ " has no execution")] ↔
      '\\' ∉ id.toList ∧ '\n' ∉ id.toList) ∧
    ('\\' ∉ id.toList → ∃ program, task.program = some program ∧
      program.unit.invoke mainRoutine {} =
        (.ok .null, { output := #[.line (String.ofList (laid 1 false [] (notice id)))] })) := by
  have reads (plain : '\\' ∉ id.toList) : ∃ program, task.program = some program ∧
      program.unit.invoke mainRoutine {} =
        (.ok .null, { output := #[.line (String.ofList (laid 1 false [] (notice id)))] }) := by
    obtain ⟨body, inside, whole, read, eq⟩ := afterQuote_eq (mt (mem_notice (.inl rfl)).1 plain)
    rw [laid_notice_quote] at eq
    rw [List.append_cancel_right eq]
    exact reports_read made unscripted known whole read
  refine ⟨?_, reads⟩
  rw [← ofList_notice]
  by_cases plain : '\\' ∈ id.toList
  · have silent : ¬ task.output = #[.line (String.ofList (notice id))] := fun reports =>
      not_mem_of_reports made unscripted reports plain
    exact iff_of_false silent fun both => both.1 plain
  · obtain ⟨program, some, runs⟩ := reads plain
    rw [output_of_program some runs, and_iff_right plain, ← laid_notice_iff, Array.singleton_inj,
      Output.line.injEq, String.ofList_inj]

/-- A name with quotes, comment marks, a brace and repeated blanks is reported. -/
theorem task_reports_itself_porch :
    ∃ task, ScheduleTask.create { engine := .core, clock := .standing 0, dateFormat := "" }
        "  \"porch\" // \x7b  /* " .empty = .ok task ∧
      task.config.execute = none ∧
      (∀ space ∈ task.config.namespaces, Engine.core.hasNamespace space) ∧
      task.output =
        #[.line ("schedule " ++ "  \"porch\" // \x7b  /* " ++ " has no execution")] := by
  obtain ⟨task, made, unscripted, spaces⟩ := create_empty
    { engine := .core, clock := .standing 0, dateFormat := "" } "  \"porch\" // \x7b  /* "
  have known : ∀ space ∈ task.config.namespaces, Engine.core.hasNamespace space := by
    rw [spaces]
    decide
  exact ⟨task, made, unscripted, known,
    (task_reports_itself made unscripted known).1.2 ⟨by decide, by decide⟩⟩

/-- A backslash in a name is taken for the start of an escape. -/
theorem backslash_is_not_reported :
    ∃ task, ScheduleTask.create { engine := .core, clock := .standing 0, dateFormat := "" }
        "a\\b" .empty = .ok task ∧
      task.config.execute = none ∧ task.config.namespaces = [coreNamespace] ∧
      task.output = #[.line "schedule ab has no execution"] := by
  obtain ⟨task, made, unscripted, spaces⟩ := create_empty
    { engine := .core, clock := .standing 0, dateFormat := "" } "a\\b"
  have known : ∀ space ∈ task.config.namespaces, Engine.core.hasNamespace space := by
    rw [spaces]
    decide
  have whole : afterQuote (notice "a\\b") =
      (noticeFront ++ ['a', '\\', 'b'] ++ noticeBack) ++ '"' :: routineEnd := by decide
  have read : unquote false (noticeFront ++ ['a', '\\', 'b'] ++ noticeBack) =
      some (noticeFront ++ ['a', 'b'] ++ noticeBack) := by decide
  obtain ⟨program, some, runs⟩ := reports_read made unscripted known whole read
  refine ⟨task, made, unscripted, spaces, ?_⟩
  rw [output_of_program some runs]
  rfl

end ScriptHost
