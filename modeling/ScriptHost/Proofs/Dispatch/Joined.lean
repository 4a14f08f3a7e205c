import ScriptHost.Proofs.Assembly.Opening
import ScriptHost.Proofs.Dispatch.Ranking
import ScriptHost.Proofs.Script.Compiling
import ScriptHost.Proofs.Script.Linking
import ScriptHost.Script.StandardActions
/-!
# Handlers that share a dispatcher

A dispatcher's source is compiled anew, under the namespaces of all its members, so a word of
one member can come to mean what a namespace of another makes of it, and two members can define
routines of one name.

**What has to hold.** `Separate`: no two members' units define a routine of one name.
`Unambiguous`: every host action that a unit uses is the one that its name means under the
namespaces of all.

**Results.**
* `members_keep_their_meaning`: these two are exactly what it takes for the dispatcher's source
  to compile to the routines of its members as they are, and then every routine does in the
  dispatcher's unit what it does in the unit of its handler.
* `namespaces_of_members_clash`: they do not hold of themselves.
-/
namespace ScriptHost

open Grammar Scanner

/-- The program of a handler, if it has one, is that of the source of some configuration of it. -/
def Handler.HoldsOwn (handler : Handler) (engine : Engine) : Prop :=
  ∀ program, handler.program = some program →
    ∃ config, ({ handler with config }).source.compile engine = .ok program

theorem Handler.HoldsOwn.congr {handler handler' : Handler} {engine : Engine}
    (own : handler.HoldsOwn engine) (id : handler'.id = handler.id)
    (program : handler'.program = handler.program) : handler'.HoldsOwn engine := by
  intro p holds
  obtain ⟨config, made⟩ := own p (program ▸ holds)
  refine ⟨config, ?_⟩
  rw [← made]
  simp only [Handler.source, Handler.routine, id]

def Handler.compiled (handler : Handler) (engine : Engine) : Handler :=
  { handler with program := (handler.source.compile engine).toOption }

theorem Handler.holdsOwn_compiled (handler : Handler) (engine : Engine) :
    (handler.compiled engine).HoldsOwn engine := by
  intro program holds
  refine ⟨handler.config, ?_⟩
  change handler.source.compile engine = .ok program
  cases made : handler.source.compile engine with
  | error _ => simp [compiled, made, Except.toOption] at holds
  | ok own => simpa [compiled, made, Except.toOption] using holds

namespace DispatchGraph

def unitsOf (handlers : List Handler) : List CompiledUnit :=
  handlers.filterMap fun h => h.program.map (·.unit)

/-- No two of the units define a routine of one name. -/
def Separate (units : List CompiledUnit) : Prop :=
  units.Pairwise fun unit other => ∀ name, ¬ (unit.contains name ∧ other.contains name)

/-- Every host action in a routine of the units is the one that its name means under these
namespaces. -/
def Unambiguous (engine : Engine) (namespaces : List String) (units : List CompiledUnit) : Prop :=
  ∀ unit ∈ units, ∀ name s, unit.blocks.get? name = some s → ∀ word action, s.Uses word action →
    engine.meaning (coreNamespace :: namespaces) word = some action

/-! ## The joined source -/

@[simp] theorem unitsOf_nil : unitsOf [] = [] := rfl

theorem unitsOf_cons_none {handler : Handler} (h : handler.program = none) (rest : List Handler) :
    unitsOf (handler :: rest) = unitsOf rest := by
  simp [unitsOf, h]

theorem unitsOf_cons_some {handler : Handler} {program : Program}
    (h : handler.program = some program) (rest : List Handler) :
    unitsOf (handler :: rest) = program.unit :: unitsOf rest := by
  simp [unitsOf, h]

theorem mem_unitsOf {unit : CompiledUnit} {handlers : List Handler} :
    unit ∈ unitsOf handlers ↔ ∃ h ∈ handlers, ∃ program, h.program = some program ∧
      program.unit = unit := by
  simp [unitsOf]

theorem toList_joinSource (handlers : List Handler) : ∀ source : ProgramSource,
    (∀ unit ∈ unitsOf handlers, unit.source.endsWith "\n" = true) →
    (handlers.foldl joinSource source).text.toList =
      source.text.toList ++ (unitsOf handlers).flatMap (·.source.toList) := by
  induction handlers with
  | nil => simp
  | cons h rest ih =>
    intro source ends
    rw [List.foldl_cons]
    cases program : h.program with
    | none =>
      rw [unitsOf_cons_none program] at ends ⊢
      rw [ih _ ends, joinSource, program]
    | some program' =>
      rw [unitsOf_cons_some program] at ends ⊢
      rw [ih _ fun unit mem => ends unit (.tail _ mem), joinSource, program]
      simp [ends _ (.head _)]

theorem mem_addNames {name : String} (names : List String) : ∀ known : List String,
    name ∈ names.foldl (fun known name =>
      if known.contains name then known else known ++ [name]) known ↔
      name ∈ known ∨ name ∈ names := by
  induction names with
  | nil => simp
  | cons other rest ih =>
    intro known
    rw [List.foldl_cons, ih]
    by_cases seen : other ∈ known
    · rw [if_pos (List.contains_iff_mem.2 seen), List.mem_cons]
      grind
    · rw [if_neg (mt List.contains_iff_mem.1 seen)]
      simp [or_assoc]

theorem namespaces_joinSource (handlers : List Handler) : ∀ source : ProgramSource,
    (handlers.foldl joinSource source).namespaces =
      ((unitsOf handlers).flatMap (·.namespaces)).foldl
        (fun known name => if known.contains name then known else known ++ [name])
        source.namespaces := by
  induction handlers with
  | nil => exact fun _ => rfl
  | cons h rest ih =>
    intro source
    rw [List.foldl_cons, ih, joinSource]
    cases program : h.program with
    | none => rw [unitsOf_cons_none program]
    | some program' => rw [unitsOf_cons_some program, List.flatMap_cons, List.foldl_append]

theorem mem_namespaces_joinSource {name : String} (handlers : List Handler)
    (source : ProgramSource) : name ∈ (handlers.foldl joinSource source).namespaces ↔
      name ∈ source.namespaces ∨ ∃ unit ∈ unitsOf handlers, name ∈ unit.namespaces := by
  rw [namespaces_joinSource, mem_addNames, List.mem_flatMap]

theorem entries_joinSource (handlers : List Handler) : ∀ source : ProgramSource,
    (handlers.foldl joinSource source).entries = source.entries ++
      handlers.filterMap fun h => h.program.map fun _ => ⟨h.id, h.routine⟩ := by
  induction handlers with
  | nil => simp
  | cons h rest ih =>
    intro source
    rw [List.foldl_cons, ih, joinSource]
    cases program : h.program <;> simp [program]

/-! ## Units of handlers -/

/-- What is known of a unit made from an assembled source, of tokens of these kinds and with
these definitions. -/
structure Assembled (engine : Engine) (unit : CompiledUnit) (kinds : List TokenKind)
    (list : Definitions) : Prop where
  whole : WholeLines unit.source.toList
  ends : unit.source.endsWith "\n" = true
  scans : Scans unit.source.toList kinds
  starts : kinds.head? = some (.word "def")
  made : ∃ actions, engine.actions unit.namespaces = .ok actions ∧
    Defines actions list (kinds ++ [.endOfSource]) [.endOfSource]
  linked : link .empty list = .ok unit.blocks
  resolved : Resolved unit.blocks

theorem assembled_of_source {handler : Handler} {engine : Engine} {program : Program}
    (h : handler.source.compile engine = .ok program) :
    program.unit.contains handler.routine ∧
      ∃ kinds list, Assembled engine program.unit kinds list := by
  have isWord := Handler.isWord_routineName handler.id
  obtain ⟨made, -⟩ := ProgramSource.compile_ok_iff.1 h
  obtain ⟨source, namespaces, actions, tokens, -, scanned, -⟩ := Engine.compile_ok_iff.1 made
  obtain ⟨rest, opens⟩ :=
    assembleHandler_opening isWord handler.config.handle handler.config.condition
    handler.config.deny handler.config.exceptions
  obtain ⟨kinds, -, scans⟩ := all_sound scanned
  obtain ⟨others, eq⟩ := Scans.opening isWord (opens ▸ scans)
  have starts : kinds.head? = some (.word "def") := by rw [eq, List.head?_cons]
  obtain ⟨-, -, actions, list, visible, defines, linked, resolved⟩ :=
    (Engine.compile_routines_iff scans starts).1 made
  constructor
  · rw [eq] at defines
    cases defines with
    | @more _ body _ _ _ _ _ _ =>
      have known : program.unit.blocks.get? handler.routine = some (.block body) :=
        (get?_link linked).2 (.inr ⟨body, .head _, rfl⟩)
      simp [CompiledUnit.contains, Table.contains, known]
  · have whole : WholeLines program.unit.source.toList := by
      rw [source]
      exact stripComments_whole _
    have ends : program.unit.source.endsWith "\n" = true := by
      rw [endsWith_newline]
      refine whole.resolve_left fun empty => ?_
      rw [source] at empty
      have := opens.symm.trans empty
      simp [opening] at this
    rw [← source] at scans
    rw [← namespaces] at visible
    exact ⟨kinds, list, whole, ends, scans, starts, ⟨actions, visible, defines⟩, linked, resolved⟩

section Assembled

variable {engine : Engine} {unit : CompiledUnit} {kinds : List TokenKind} {list : Definitions}

theorem Assembled.get? (h : Assembled engine unit kinds list) {name : String} {s : Statement} :
    unit.blocks.get? name = some s ↔ ∃ body, (name, body) ∈ list ∧ s = .block body := by
  rw [get?_link h.linked, Table.get?_empty]
  simp

theorem Assembled.contains (h : Assembled engine unit kinds list) {name : String} :
    unit.contains name ↔ name ∈ list.map (·.1) := by
  simp only [CompiledUnit.contains, Table.contains, Option.isSome_iff_exists, h.get?, List.mem_map]
  constructor
  · rintro ⟨_, body, mem, rfl⟩
    exact ⟨_, mem, rfl⟩
  · rintro ⟨⟨_, body⟩, mem, rfl⟩
    exact ⟨_, body, mem, rfl⟩

/-- Under every action table that has its host actions, a unit's text defines the same, whatever
follows it. -/
theorem Assembled.defines (h : Assembled engine unit kinds list) {table : Table HostAction}
    (agree : ∀ name s, unit.blocks.get? name = some s → ∀ word action, s.Uses word action →
      table.get? word = some action) (rest : List TokenKind) : Defines table list
        (kinds ++ rest) rest := by
  obtain ⟨actions, -, defines⟩ := h.made
  obtain ⟨taken, split, anyhow⟩ := defines.transport fun d mem s inside word action used =>
    agree d.1 (.block d.2) (h.get?.2 ⟨d.2, mem, rfl⟩) word action
      (Statement.uses_block.2 ⟨s, inside, used⟩)
  rw [List.append_cancel_right split]
  exact anyhow rest

end Assembled

/-! ## All units together -/

/-- Units made from assembled sources, with the tokens and the definitions of all, one after the
other. -/
inductive AssembledAll (engine : Engine) : List CompiledUnit → List TokenKind → Definitions → Prop
  | nil : AssembledAll engine [] [] []
  | cons {unit kinds list units kinds' list'} : Assembled engine unit kinds list →
      AssembledAll engine units kinds' list' → AssembledAll engine (unit :: units) (kinds ++ kinds')
        (list ++ list')

theorem assembled_all {engine : Engine} {units : List CompiledUnit}
    (each : ∀ unit ∈ units, ∃ kinds list, Assembled engine unit kinds list) :
    ∃ kinds list, AssembledAll engine units kinds list := by
  induction units with
  | nil => exact ⟨[], [], .nil⟩
  | cons unit others ih =>
    obtain ⟨kinds, list, first⟩ := each unit (.head _)
    obtain ⟨kinds', list', rest⟩ := ih fun unit mem => each unit (.tail _ mem)
    exact ⟨_, _, .cons first rest⟩

namespace AssembledAll

variable {engine : Engine} {units : List CompiledUnit} {kinds : List TokenKind} {list : Definitions}

theorem scans (h : AssembledAll engine units kinds list) :
    Scans (units.flatMap (·.source.toList)) kinds := by
  induction h with
  | nil => exact .done rfl
  | cons first _ ih => exact first.scans.append ih first.whole

theorem starts (h : AssembledAll engine units kinds list) (nonempty : units ≠ []) :
    kinds.head? = some (.word "def") := by
  cases h with
  | nil => exact absurd rfl nonempty
  | cons first _ =>
    rw [List.head?_append, first.starts]
    rfl

theorem get? (h : AssembledAll engine units kinds list) {name : String} {s : Statement} :
    (∃ body, (name, body) ∈ list ∧ s = .block body) ↔
      ∃ unit ∈ units, unit.blocks.get? name = some s := by
  induction h with
  | nil => simp
  | cons first _ ih =>
    simp only [List.mem_append, or_and_right, exists_or, ih, ← first.get?, List.mem_cons,
      exists_eq_left]

theorem mem_names (h : AssembledAll engine units kinds list) {name : String} :
    name ∈ list.map (·.1) ↔ ∃ unit ∈ units, unit.contains name := by
  induction h with
  | nil => simp
  | cons first _ ih => simp only [List.map_append, List.mem_append, ih, ← first.contains,
    List.mem_cons, exists_eq_or_imp]

theorem nodup_iff (h : AssembledAll engine units kinds list) : (list.map (·.1)).Nodup ↔
    Separate units := by
  induction h with
  | nil => simp [Separate]
  | @cons unit _ list _ _ _ first rest ih =>
    have nodup : (list.map (·.1)).Nodup := (link_ok_iff.1 ⟨_, first.linked⟩).1
    rw [List.map_append, List.nodup_append, ih, Separate, Separate, List.pairwise_cons]
    constructor
    · rintro ⟨-, apart, differ⟩
      refine ⟨fun other mem name both => ?_, apart⟩
      exact differ name (first.contains.1 both.1) name (rest.mem_names.2 ⟨other, mem, both.2⟩) rfl
    · rintro ⟨differ, apart⟩
      refine ⟨nodup, apart, ?_⟩
      rintro name mine _ theirs rfl
      obtain ⟨other, mem, known⟩ := rest.mem_names.1 theirs
      exact differ other mem name ⟨first.contains.2 mine, known⟩

/-- Under an action table that has the host actions of all units, their texts define together
what each does. -/
theorem defines (h : AssembledAll engine units kinds list) {table : Table HostAction}
    (agree : ∀ unit ∈ units, ∀ name s, unit.blocks.get? name = some s → ∀ word action,
      s.Uses word action →
      table.get? word = some action) (rest : List TokenKind) : Defines table list
        (kinds ++ rest) rest := by
  induction h with
  | nil => exact .done
  | cons first _ ih =>
    rw [List.append_assoc]
    exact (first.defines (agree _ (.head _)) _).append (ih fun unit mem => agree unit (.tail _ mem))

theorem resolved (h : AssembledAll engine units kinds list) {table : Table Statement}
    (linked : link .empty list = .ok table) : Resolved table := by
  have found {name : String} {s : Statement} : table.get? name = some s ↔
      ∃ unit ∈ units, unit.blocks.get? name = some s := by
    rw [get?_link linked, ← h.get?]
    simp
  have each : ∀ unit ∈ units, Resolved unit.blocks := by
    clear found linked
    induction h with
    | nil => exact nofun
    | cons first _ ih => exact List.forall_mem_cons.2 ⟨first.resolved, ih⟩
  intro name s known routine called
  obtain ⟨unit, mem, known⟩ := found.1 known
  obtain ⟨t, there⟩ := Option.isSome_iff_exists.1 (each unit mem name s known routine called)
  exact Option.isSome_iff_exists.2 ⟨t, found.2 ⟨unit, mem, there⟩⟩

end AssembledAll

/-! ## The unit of a dispatcher -/

theorem assembled_of_own {engine : Engine} {handlers : List Handler}
    (own : ∀ h ∈ handlers, h.HoldsOwn engine) :
    ∀ unit ∈ unitsOf handlers, ∃ kinds list, Assembled engine unit kinds list := by
  intro unit mem
  obtain ⟨h, inside, program, holds, rfl⟩ := mem_unitsOf.1 mem
  obtain ⟨config, made⟩ := own h inside program holds
  exact (assembled_of_source made).2

theorem host_known_of_link {actions : Table HostAction} {list : Definitions}
    {before after : List TokenKind} {blocks : Table Statement}
    (defines : Defines actions list before after) (linked : link .empty list = .ok blocks)
    {name : String} {s : Statement} (known : blocks.get? name = some s) {word : String}
    {action : HostAction} (used : s.Uses word action) : actions.get? word = some action := by
  rcases (get?_link linked).1 known with none | ⟨body, mem, rfl⟩
  · cases none
  · obtain ⟨t, inside, used⟩ := Statement.uses_block.1 used
    exact defines.host_known _ mem t inside word action used

section

variable {engine : Engine} {handlers : List Handler}

theorem joinedSource_text (own : ∀ h ∈ handlers, h.HoldsOwn engine) :
    (joinedSource handlers).text.toList = (unitsOf handlers).flatMap (·.source.toList) := by
  rw [joinedSource, toList_joinSource handlers {} fun unit mem => ?_]
  · rfl
  · obtain ⟨_, _, assembled⟩ := assembled_of_own own unit mem
    exact assembled.ends

theorem joined_namespaces_known (own : ∀ h ∈ handlers, h.HoldsOwn engine) :
    ∃ actions, engine.actions (joinedSource handlers).namespaces = .ok actions := by
  refine Engine.actions_ok_iff.2 fun space mem => ?_
  rw [joinedSource, mem_namespaces_joinSource] at mem
  rcases mem with none | ⟨unit, mem, asked⟩
  · cases none
  · obtain ⟨_, _, assembled⟩ := assembled_of_own own unit mem
    obtain ⟨actions, visible, -⟩ := assembled.made
    exact Engine.actions_ok_iff.1 ⟨actions, visible⟩ space asked

theorem joined_compiles_of_none (own : ∀ h ∈ handlers, h.HoldsOwn engine)
    (none : unitsOf handlers = []) :
    ∃ joint, (joinedSource handlers).compile engine = .ok joint := by
  obtain ⟨actions, visible⟩ := joined_namespaces_known own
  have scans : Scans (joinedSource handlers).text.toList [] := by
    rw [joinedSource_text own, none]
    exact .done rfl
  obtain ⟨tokens, scanned, eq⟩ := scans.all ⟨1, 1⟩
  let unit : CompiledUnit := ⟨(joinedSource handlers).text, (joinedSource handlers).namespaces,
    Table.empty.insert mainRoutine (.block [])⟩
  have made : engine.compile unit.source unit.namespaces = .ok unit :=
    Engine.compile_ok_iff.2 ⟨rfl, rfl, actions, tokens, visible, scanned, routines_of_nothing eq⟩
  exact ⟨⟨unit, _⟩, ProgramSource.compile_ok_iff.2 ⟨made, rfl⟩⟩

/-- Separate units and unambiguous words are exactly what it takes for the source of a
dispatcher to compile to the routines of its members as they are. -/
theorem joined_compiles_iff (own : ∀ h ∈ handlers, h.HoldsOwn engine) :
    (Separate (unitsOf handlers) ∧
      Unambiguous engine (joinedSource handlers).namespaces (unitsOf handlers)) ↔
      ∃ joint, (joinedSource handlers).compile engine = .ok joint ∧
        ∀ unit ∈ unitsOf handlers, Embeds unit.blocks joint.unit.blocks := by
  obtain ⟨kinds, list, all⟩ := assembled_all (assembled_of_own own)
  obtain ⟨actions, visible⟩ := joined_namespaces_known own
  have scans : Scans (joinedSource handlers).text.toList kinds := joinedSource_text own ▸ all.scans
  by_cases nonempty : unitsOf handlers = []
  · obtain ⟨joint, made⟩ := joined_compiles_of_none own nonempty
    simp only [nonempty, Separate, Unambiguous, List.Pairwise.nil, List.not_mem_nil, false_imp_iff,
      implies_true,
      and_self, true_iff, and_true]
    exact ⟨joint, made⟩
  have starts := all.starts nonempty
  constructor
  · rintro ⟨separate, unambiguous⟩
    have agree : ∀ unit ∈ unitsOf handlers, ∀ name s, unit.blocks.get? name = some s →
        ∀ word action,
        s.Uses word action → actions.get? word = some action := by
      intro unit mem name s known word action used
      rw [Engine.get?_actions visible]
      exact unambiguous unit mem name s known word action used
    have defines := all.defines agree
    obtain ⟨blocks, linked⟩ : ∃ table, link .empty list = .ok table :=
      link_ok_iff.2 ⟨all.nodup_iff.2 separate, fun _ _ => rfl⟩
    refine ⟨⟨⟨(joinedSource handlers).text, (joinedSource handlers).namespaces, blocks⟩,
      (joinedSource handlers).entries⟩, ?_, fun unit mem name s known => ?_⟩
    · rw [ProgramSource.compile_ok_iff]
      refine ⟨(Engine.compile_routines_iff scans starts).2 ⟨rfl, rfl, actions, list, visible, ?_,
        linked, ?_⟩, rfl⟩
      · exact defines [.endOfSource]
      · exact all.resolved linked
    · exact (get?_link linked).2 (.inr (all.get?.2 ⟨unit, mem, known⟩))
  · rintro ⟨joint, made, embeds⟩
    obtain ⟨made, -⟩ := ProgramSource.compile_ok_iff.1 made
    obtain ⟨-, -, actions', list', visible', defines', linked', -⟩ :=
      (Engine.compile_routines_iff scans starts).1 made
    obtain rfl : actions' = actions := by simpa using visible'.symm.trans visible
    have agree : ∀ unit ∈ unitsOf handlers, ∀ name s, unit.blocks.get? name = some s →
        ∀ word action,
        s.Uses word action → actions'.get? word = some action :=
      fun unit mem name s known word action used =>
        host_known_of_link defines' linked' (embeds unit mem name s known) used
    constructor
    · have same := link_unique (all.defines agree [.endOfSource]) defines' .empty
      exact all.nodup_iff.1 (link_ok_iff.1 ⟨_, same.trans linked'⟩).1
    · intro unit mem name s known word action used
      rw [← Engine.get?_actions visible]
      exact agree unit mem name s known word action used

end

/-! ## Every member as by itself -/

/-- Handlers that share a dispatcher keep their routines and their meaning exactly if their
units are separate and their words are unambiguous: then the dispatcher's source compiles, the
program runs the routines of its members in order, and every routine of a member does there what
it does in the unit of the member itself. -/
theorem members_keep_their_meaning {g : DispatchGraph} {d : Key .dispatcher}
    (own : ∀ h ∈ g.handlersOf d, h.HoldsOwn g.engine) :
    ((Separate (unitsOf (g.handlersOf d)) ∧
        Unambiguous g.engine (g.sourceOf d).namespaces (unitsOf (g.handlersOf d))) ↔
      ∃ joint, (g.sourceOf d).compile g.engine = .ok joint ∧
        ∀ unit ∈ unitsOf (g.handlersOf d), Embeds unit.blocks joint.unit.blocks) ∧
    ∀ joint, (g.sourceOf d).compile g.engine = .ok joint →
      (∀ unit ∈ unitsOf (g.handlersOf d), Embeds unit.blocks joint.unit.blocks) →
      (joint.entries = (g.handlersOf d).filterMap fun h => h.program.map fun _ =>
        ⟨h.id, h.routine⟩) ∧
      ∀ h ∈ g.handlersOf d, ∀ program, h.program = some program →
        program.unit.contains h.routine ∧
        ∀ block, program.unit.contains block → ∀ context,
          joint.unit.invoke block context = program.unit.invoke block context := by
  refine ⟨joined_compiles_iff own, fun joint made embeds => ⟨?_, fun h mem program holds => ?_⟩⟩
  · rw [(ProgramSource.compile_ok_iff.1 made).2, sourceOf, joinedSource, entries_joinSource]
    rfl
  · obtain ⟨config, compiled⟩ := own h mem program holds
    obtain ⟨contained, _, _, assembled⟩ := assembled_of_source compiled
    have inside : program.unit ∈ unitsOf (g.handlersOf d) :=
      mem_unitsOf.2 ⟨h, mem, program, holds, rfl⟩
    refine ⟨contained, fun block known context => ?_⟩
    exact CompiledUnit.invoke_eq assembled.resolved (embeds _ inside) known context

/-- Two handlers, compiled each by itself, at one dispatcher. -/
def sharing (engine : Engine) (first second : Handler) : DispatchGraph where
  engine
  handlers := (Store.empty.add (first.compiled engine)).add (second.compiled engine)
  dispatchers := Store.empty.add { id := "d", members := [⟨0⟩, ⟨1⟩] }

/-- A handler that runs one line under a namespace. -/
def lineHandler (id space line : String) : Handler where
  id
  entry := .empty
  config := { namespaces := [space], handle := line }

theorem holdsOwn_sharing (engine : Engine) (first second : Handler) :
    ∀ h ∈ (sharing engine first second).handlersOf ⟨0⟩, h.HoldsOwn engine := by
  intro h mem
  obtain ⟨key, -, found⟩ := mem_handlersOf.1 mem
  simp only [sharing, Store.get?_add, Store.get?_empty] at found
  split at found
  · cases found
    exact second.holdsOwn_compiled engine
  · split at found
    · cases found
      exact first.holdsOwn_compiled engine
    · cases found

theorem members_of_one_namespace :
    let g := sharing StandardActions.engine (lineHandler "a" "text" "print tag")
      (lineHandler "b" "text" "print tag")
    (∀ h ∈ g.handlersOf ⟨0⟩, h.HoldsOwn g.engine) ∧
      ((Separate (unitsOf (g.handlersOf ⟨0⟩)) ∧
          Unambiguous g.engine (g.sourceOf ⟨0⟩).namespaces (unitsOf (g.handlersOf ⟨0⟩))) ↔
        ∃ joint, (g.sourceOf ⟨0⟩).compile g.engine = .ok joint ∧
          ∀ unit ∈ unitsOf (g.handlersOf ⟨0⟩), Embeds unit.blocks joint.unit.blocks) := by
  intro g
  have own : ∀ h ∈ g.handlersOf ⟨0⟩, h.HoldsOwn g.engine := holdsOwn_sharing _ _ _
  exact ⟨own, (members_keep_their_meaning own).1⟩

/-- Two handlers whose namespaces both have an action `tag`. -/
def clash : DispatchGraph :=
  sharing StandardActions.engine (lineHandler "a" "text" "print tag")
    (lineHandler "b" "alt" "print tag *x")

/-- Separate and unambiguous the members of a dispatcher are not of themselves: a namespace of
one can change what another prints. -/
theorem namespaces_of_members_clash :
    ¬ ∀ (g : DispatchGraph) (d : Key .dispatcher),
      (∀ h ∈ g.handlersOf d, h.HoldsOwn g.engine ∧ h.program.isSome) →
      (g.handlersOf d).Pairwise (fun h other => h.routine ≠ other.routine) →
      ∃ joint, (g.sourceOf d).compile g.engine = .ok joint ∧
        ∀ h ∈ g.handlersOf d, ∀ program, h.program = some program → ∀ context,
          (joint.unit.invoke h.routine context).1 = (program.unit.invoke h.routine context).1 ∧
          (joint.unit.invoke h.routine context).2.output =
            (program.unit.invoke h.routine context).2.output ∧
          (joint.unit.invoke h.routine context).2.scope =
            (program.unit.invoke h.routine context).2.scope := by
  intro all
  obtain ⟨compiled, apart, differ⟩ : (clash.handlersOf ⟨0⟩).all (·.program.isSome) = true ∧
      (clash.handlersOf ⟨0⟩).Pairwise (fun h other => h.routine ≠ other.routine) ∧
      ((clash.handlersOf ⟨0⟩).all fun h =>
        ((clash.sourceOf ⟨0⟩).compile clash.engine).toOption.all fun joint =>
          h.program.all fun program =>
          decide ((joint.unit.invoke h.routine {}).2.output =
            (program.unit.invoke h.routine {}).2.output)) = false := by
    decide +kernel
  have own := holdsOwn_sharing StandardActions.engine (lineHandler "a" "text" "print tag")
    (lineHandler "b" "alt" "print tag *x")
  obtain ⟨joint, made, same⟩ :=
    all clash ⟨0⟩ (fun h mem => ⟨own h mem, List.all_eq_true.1 compiled h mem⟩) apart
  obtain ⟨h, mem, other⟩ := List.all_eq_false.1 differ
  obtain ⟨program, holds⟩ := Option.isSome_iff_exists.1 (List.all_eq_true.1 compiled h mem)
  rw [made, holds] at other
  exact other (decide_eq_true (same h mem program holds {}).2.1)

end DispatchGraph
end ScriptHost
