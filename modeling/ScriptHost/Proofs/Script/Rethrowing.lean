import ScriptHost.Proofs.Script.Ending
/-!
# Errors thrown again

A handler sees an error as one text, the value of the variable `error`. `throw &error` makes an
error of that text again, by the rule that `throw` goes by: the kind is what stands before the
first `: `, if no blank is in it. Not every text shows where its kind ends, but the message of an
error that was thrown does. What stands before its first `: ` is either the kind that was found
that way, or `error`, which has no blank in it.

**The way of an error.** `Relayed` follows an error that goes out through the frames of a run. It
passes what does not handle it. A clause that catches it starts a handler, which may run on for as
long as it likes before it comes to `throw &error`; what that statement fails with is what goes on.
Nothing is said there about which error this is.

**Results.**
* `ScriptError.ofMessage_message`: the message of a thrown error makes the same error again.
* `Relayed.nested`: clauses that catch an error and throw it again do so in any number.
* `rethrown_error_is_same`: however often a thrown error is caught and thrown again, it keeps its
  kind and its message; so does the failure of the block, if the error comes out of it.
-/
namespace ScriptHost

open Stage

/-! ## Messages of thrown errors -/

theorem eq_append_of_cutAtColon {text before behind : List Char}
    (h : cutAtColon text = some (before, behind)) : text = before ++ ':' :: ' ' :: behind := by
  fun_induction cutAtColon text generalizing before with
  | case1 => cases h
  | case2 rest =>
    cases h
    rfl
  | case3 c rest _ ih =>
    obtain ⟨⟨inside, behind⟩, found, same⟩ := Option.map_eq_some_iff.1 h
    cases same
    rw [ih found, List.cons_append]

namespace ScriptError

theorem toList_message_thrown (kind text : String) :
    (thrown kind text).message.toList = kind.toList ++ ':' :: ' ' :: text.toList := by
  show (kind ++ ": " ++ text).toList = _
  rw [String.toList_append, String.toList_append, List.append_assoc]
  rfl

/-- A thrown error has the text that was thrown as its message, or it has the kind `error` and that
text behind it. -/
theorem ofMessage_cases (text : String) :
    (ofMessage text).message = text ∨ ofMessage text = .thrown "error" text := by
  unfold ofMessage
  split
  · rename_i kind rest cut
    split
    · exact .inr rfl
    · left
      rw [← String.toList_inj, toList_message_thrown, String.toList_ofList, String.toList_ofList,
        eq_append_of_cutAtColon cut]
  · exact .inr rfl

theorem ofMessage_error (text : String) :
    ofMessage (thrown "error" text).message = .thrown "error" text := by
  have cut : cutAtColon (thrown "error" text).message.toList =
      some ("error".toList, text.toList) := by
    rw [toList_message_thrown]
    rfl
  have unblank : "error".toList.any Text.isBlank = false := by decide
  rw [ofMessage, cut]
  simp only [unblank, Bool.false_eq_true, if_false, String.ofList_toList]

/-- The message of a thrown error makes the same error again. -/
theorem ofMessage_message (text : String) :
    ofMessage (ofMessage text).message = ofMessage text := by
  rcases ofMessage_cases text with same | same
  · rw [same]
  · rw [same, ofMessage_error]

/-- A host action leaves a thrown error as it is. -/
theorem fromAction_ofMessage (name text : String) :
    (ofMessage text).fromAction name = ofMessage text := by
  unfold ofMessage
  split
  · split <;> rfl
  · rfl

end ScriptError

/-! ## The way of an error -/

namespace Statement

/-- The statement `throw &error`. -/
def rethrow : Statement := .throw (reference errorVariable).toParam.narrow

/-- A literal is the only parameter that is fixed. -/
theorem toParam_cases (s : Statement) :
    (∃ value, s = literal value) ∨ s.toParam = .deferred s := by
  cases s with
  | literal value => exact .inl ⟨value, rfl⟩
  | _ => exact .inr rfl

theorem throw_run {s : Statement} {value : Value} {context after : Context}
    (comes : s.run context = (.ok value, after)) :
    (Statement.throw s.toParam.narrow).run context =
      (.error (.ofMessage value.display), after) := by
  rw [run] at comes
  rw [run, eval, Run.bind_apply]
  rcases s.toParam_cases with ⟨fixed, rfl⟩ | waits
  · rw [eval] at comes
    cases comes
    rfl
  · rw [waits, Param.narrow, Param.eval, Run.bind_apply, comes]
    rfl

theorem rethrow_run (context : Context) :
    rethrow.run context =
      (.error (.ofMessage ((context.scope.get? errorVariable).getD .null).display), context) := by
  apply throw_run
  rw [run, eval]
  rfl

/-- While the variable holds an error that was thrown, that error is thrown again. -/
theorem rethrow_run_of_holds {context : Context} {text : String}
    (holds : context.scope.get? errorVariable =
      some (.string (ScriptError.ofMessage text).message)) :
    rethrow.run context = (.error (.ofMessage text), context) := by
  have read : ((context.scope.get? errorVariable).getD .null).display =
      (ScriptError.ofMessage text).message := by
    rw [holds]
    rfl
  rw [rethrow_run, read, ScriptError.ofMessage_message]

/-- A statement with a clause around it for each pattern, from the inside out, that throws again
what it catches. -/
def relaying (s : Statement) (patterns : List String) : Statement :=
  patterns.foldl (fun inner pattern => .attempt inner [(pattern, rethrow)]) s

end Statement

/-- The frame of a clause that throws again what it catches. -/
def Frame.relay (pattern : String) : Frame := .attempt [(pattern, .rethrow)]

/-- The context in which a handler of an error starts. -/
def Context.handling (context : Context) (error : ScriptError) : Context :=
  { context with scope := context.scope.insert errorVariable (.string error.message) }

theorem Context.get?_handling (context : Context) (error : ScriptError) :
    (context.handling error).scope.get? errorVariable = some (.string error.message) := by
  rw [handling, Table.get?_insert, if_pos rfl]

/-- The answer of a stage has gone out through frames and come to another stage, and on the way so
many handlers have thrown again what they handled. -/
inductive Relayed (first : Stage) : Nat → Stage → Prop
  | here : Relayed first 0 first
  /-- A frame hands the error on. -/
  | passed {relays : Nat} {error : ScriptError} {frame : Frame} {frames : List Frame}
    {context after : Context} :
    Relayed first relays ⟨.answer (.error error), frame :: frames, context⟩ →
    hand (.error error) frame frames context = ⟨.answer (.error error), frames, after⟩ →
    Relayed first relays ⟨.answer (.error error), frames, after⟩
  /-- A host action that asked for an argument ends with the error of that. -/
  | reported {relays : Nat} {error : ScriptError} {name : String}
    {arguments : List (Param Statement Value)} {next : Except ScriptError Value → HostSteps}
    {frames : List Frame} {context : Context} :
    Relayed first relays ⟨.answer (.error error), .reply name arguments next :: frames, context⟩ →
    next (.error error) = .finish (.error error) →
    Relayed first relays ⟨.answer (.error (error.fromAction name)), frames, context⟩
  /-- The first clause that catches the error handles it, and comes to `throw &error` while the
  variable still holds the error. -/
  | caught {relays : Nat} {error : ScriptError} {clauses : List (String × Statement)}
    {pattern : String} {handler : Statement} {frames inner : List Frame}
    {context after : Context} :
    Relayed first relays ⟨.answer (.error error), .attempt clauses :: frames, context⟩ →
    clauses.find? (error.isCaughtBy ·.1) = some (pattern, handler) →
    Leads ⟨.run handler, frames, context.handling error⟩ ⟨.run .rethrow, inner, after⟩ →
    after.scope.get? errorVariable = some (.string error.message) →
    Relayed first (relays + 1)
      ⟨.answer (Statement.rethrow.run after).1, inner, (Statement.rethrow.run after).2⟩

namespace Stage

/-- The clauses that do not catch an error are passed, up to the first that does. -/
theorem leads_handler {clauses : List (String × Statement)} {error : ScriptError}
    {pattern : String} {handler : Statement}
    (caught : clauses.find? (error.isCaughtBy ·.1) = some (pattern, handler))
    (frames : List Frame) (context : Context) :
    Leads ⟨.answer (.error error), .attempt clauses :: frames, context⟩
      ⟨.run handler, frames, context.handling error⟩ := by
  induction clauses with
  | nil => cases caught
  | cons clause others ih =>
    obtain ⟨first, body⟩ := clause
    rw [List.find?_cons] at caught
    split at caught
    · rename_i fits
      cases caught
      refine .single ?_
      rw [next?, hand, if_pos fits]
      rfl
    · rename_i differs
      refine (ih caught).next ?_
      rw [next?, hand, if_neg (by simp [differs])]

/-- Wherever a stage leads with nothing left that waits, it ends with that answer. -/
theorem Leads.ends_alike {start : Stage} {result other : Except ScriptError Value}
    {context after : Context} (h : Leads start ⟨.answer result, [], context⟩)
    (h' : Leads start ⟨.answer other, [], after⟩) : result = other := by
  obtain ⟨steps, comes⟩ := leads_iff.1 h
  obtain ⟨more, goes⟩ := leads_iff.1 h'
  -- Neither comes before the other, since nothing comes behind either.
  rcases Nat.lt_trichotomy steps more with less | rfl | less
  · cases goes.symm.trans ((Ends.of_comes comes).stops more less)
  · cases comes.symm.trans goes
    rfl
  · cases comes.symm.trans ((Ends.of_comes goes).stops steps less)

end Stage

namespace Relayed

variable {text : String} {frames : List Frame} {context : Context} {relays : Nat} {later : Stage}

theorem error_eq {error other : ScriptError}
    (same : Control.answer (.error error) = .answer (.error other)) : error = other := by
  injection same with same
  injection same

/-- The error that goes out is the one that was thrown, after any number of handlers. -/
theorem leads (h : Relayed ⟨.answer (.error (.ofMessage text)), frames, context⟩ relays later) :
    Leads ⟨.answer (.error (.ofMessage text)), frames, context⟩ later ∧
      later.control = .answer (.error (.ofMessage text)) := by
  induction h with
  | here => exact ⟨.refl _, rfl⟩
  | passed _ hands ih =>
    obtain ⟨comes, same⟩ := ih
    exact ⟨comes.trans (.single (congrArg some hands)), same⟩
  | @reported _ error name arguments next frames context _ finishes ih =>
    obtain ⟨reaches, same⟩ := ih
    have known := error_eq same
    have steps : Leads ⟨.act name arguments (next (.error error)), frames, context⟩
        ⟨.answer (.error (error.fromAction name)), frames, context⟩ := by
      rw [finishes]
      exact .single rfl
    refine ⟨reaches.trans (steps.next rfl), ?_⟩
    rw [known, ScriptError.fromAction_ofMessage]
  | @caught _ error _ _ _ _ inner _ after _ finds comes holds ih =>
    obtain ⟨reaches, same⟩ := ih
    have again := Statement.rethrow_run_of_holds (error_eq same ▸ holds)
    have handled := reaches.trans (leads_handler finds _ _)
    exact ⟨(handled.trans comes).trans (Statement.leads_run _ inner after), by rw [again]⟩

/-- Clauses that catch an error and throw it again do so one after the other. -/
theorem nested {first : Stage} {patterns : List String}
    (catches : ∀ pattern ∈ patterns, (ScriptError.ofMessage text).isCaughtBy pattern)
    (h : Relayed first relays
      ⟨.answer (.error (.ofMessage text)), patterns.map Frame.relay ++ frames, context⟩) :
    ∃ after, Relayed first (relays + patterns.length)
      ⟨.answer (.error (.ofMessage text)), frames, after⟩ := by
  induction patterns generalizing relays context with
  | nil => exact ⟨context, h⟩
  | cons pattern others ih =>
    obtain ⟨now, rest⟩ := List.forall_mem_cons.1 catches
    have finds : [(pattern, Statement.rethrow)].find?
        ((ScriptError.ofMessage text).isCaughtBy ·.1) = some (pattern, .rethrow) := by
      rw [List.find?_cons, now]
    have holds := context.get?_handling (.ofMessage text)
    have again := h.caught finds (.refl _) holds
    rw [Statement.rethrow_run_of_holds holds] at again
    obtain ⟨after, reached⟩ := ih rest again
    exact ⟨after, by rwa [List.length_cons, Nat.add_comm others.length, ← Nat.add_assoc]⟩

end Relayed

theorem Statement.leads_relaying (s : Statement) (patterns : List String) (frames : List Frame)
    (context : Context) :
    Leads ⟨.run (s.relaying patterns), frames, context⟩
      ⟨.run s, patterns.map Frame.relay ++ frames, context⟩ := by
  induction patterns generalizing s with
  | nil => exact .refl _
  | cons pattern others ih => exact (ih (.attempt s [(pattern, rethrow)])).trans (.single rfl)

/-- An error keeps its kind and its message however often it is thrown again.

What `throw` raises for a value is the error of the text of that value. That error goes on through
whatever frames wait for the statement, past any number of handlers that come to `throw &error`; if
nothing waits any more, the block fails with it. So does the statement itself with any number of
clauses around it that catch the error and throw it again. -/
theorem rethrown_error_is_same {s : Statement} {value : Value} {context after : Context}
    (comes : s.run context = (.ok value, after)) :
    (Statement.throw s.toParam.narrow).run context = (.error (.ofMessage value.display), after) ∧
      (∀ frames relays later,
        Relayed ⟨.answer (.error (.ofMessage value.display)), frames, after⟩ relays later →
        Leads ⟨.run (.throw s.toParam.narrow), frames, context⟩ later ∧
          later.control = .answer (.error (.ofMessage value.display)) ∧
          ∀ (unit : CompiledUnit) (block : String) (start : Context), later.frames = [] →
            Leads (unit.opening block start) ⟨.run (.throw s.toParam.narrow), frames, context⟩ →
            (unit.invoke block start).1 = .error (.ofMessage value.display)) ∧
      ∀ patterns : List String,
        (∀ pattern ∈ patterns, (ScriptError.ofMessage value.display).isCaughtBy pattern) →
        (((Statement.throw s.toParam.narrow).relaying patterns).run context).1 =
          .error (.ofMessage value.display) := by
  have thrown := Statement.throw_run comes
  have raises (frames : List Frame) := Statement.leads_run (.throw s.toParam.narrow) frames context
  simp only [thrown] at raises
  refine ⟨thrown, fun frames relays later relayed => ?_, fun patterns catches => ?_⟩
  · obtain ⟨leads, same⟩ := relayed.leads
    refine ⟨(raises frames).trans leads, same, fun unit block start none_waits starts => ?_⟩
    obtain ⟨control, left, context'⟩ := later
    cases same
    cases none_waits
    obtain ⟨_, ends, _⟩ := unit.leads_invoke block start
    exact ends.ends_alike ((starts.trans (raises frames)).trans leads)
  · obtain ⟨_, relayed⟩ := @Relayed.nested _ [] _ _ _ _ catches .here
    have surrounded := Statement.leads_relaying (.throw s.toParam.narrow) patterns [] context
    exact (Statement.leads_run _ [] context).ends_alike
      ((surrounded.trans (raises _)).trans relayed.leads.1)

/-- A text whose kind ends in a colon, thrown where two clauses wait: the first catches something
else, the handler of the second prints a line before it throws the error again. -/
theorem rethrown_error_is_same_of_colons :
    let error := ScriptError.thrown "io:" "disk: full"
    let clauses : List (String × Statement) := [("net*", .literal .null),
      ("io*", .block [.print (.constant "seen"), .rethrow])]
    (Statement.literal (.string "io:: disk: full")).run {} =
        (.ok (.string "io:: disk: full"), {}) ∧
      (∃ later, Relayed ⟨.answer (.error error), [.rest [], .attempt clauses], {}⟩ 1 later ∧
        later.control = .answer (.error error)) ∧
      (((Statement.throw (.constant "io:: disk: full")).relaying ["", "disk", "io:"]).run {}).1 =
        .error error := by
  intro error clauses
  have comes : (Statement.literal (.string "io:: disk: full")).run {} =
      (.ok (.string "io:: disk: full"), {}) := by
    rw [Statement.run, Statement.eval]
    rfl
  obtain ⟨-, relays, again⟩ := rethrown_error_is_same comes
  have missed : error.isCaughtBy "net*" = false := by decide +kernel
  have caught : error.isCaughtBy "io*" = true := by decide +kernel
  have catches : ∀ pattern ∈ ["", "disk", "io:"], error.isCaughtBy pattern := by decide +kernel
  have finds : clauses.find? (error.isCaughtBy ·.1) =
      some ("io*", .block [.print (.constant "seen"), .rethrow]) := by
    simp only [clauses, List.find?_cons, missed, caught]
  have steps (context : Context) : Leads
      ⟨.run (.block [.print (.constant "seen"), .rethrow]), [], context⟩
      ⟨.run .rethrow, [.rest []], { context with output := context.output.push (.line "seen") }⟩ :=
    .next rfl (.next rfl (.next rfl (.single rfl)))
  have passed : Relayed ⟨.answer (.error error), [.rest [], .attempt clauses], {}⟩ 0
      ⟨.answer (.error error), [.attempt clauses], {}⟩ := Relayed.here.passed rfl
  have way := passed.caught finds (steps _) (Context.get?_handling {} error)
  exact ⟨comes, ⟨_, way, (relays _ _ _ way).2.1⟩, again _ catches⟩

end ScriptHost
