import ScriptHost.Proofs.Script.Compiling
import ScriptHost.Proofs.Script.Separating
/-!
# Sources one behind the other

A source of routines that ends its last line can be followed by another one: the line feed keeps
their tokens apart, and every routine ends with its own brace, so none of the first goes on in the
second. What is left to go wrong are the names, since a routine may be defined only once.

**Results.**
* `Grammar.link_append`: definitions are linked part by part.
* `Grammar.link_error`: of definitions that differ among themselves, linking refuses only one that
  was there before.
* `joined_sources_compile`: two sources that compile do so together exactly if they define no common
  routine, and then to the routines of both.
-/
namespace ScriptHost

open Scanner

namespace Grammar

/-! ## Linking in two parts -/

theorem link_append (first second : Definitions) : ∀ before : Table Statement,
    link before (first ++ second) = link before first >>= fun table => link table second := by
  induction first with
  | nil => exact fun _ => rfl
  | cons d rest ih =>
    intro before
    rw [List.cons_append, link, link]
    split
    · rfl
    · exact ih _

theorem link_error {list : Definitions} {problem : CompileError} :
    ∀ {before : Table Statement}, (list.map (·.1)).Nodup → link before list = .error problem →
      ∃ d ∈ list, before.contains d.1 ∧ problem = .duplicateRoutine d.1 := by
  induction list with
  | nil => exact fun _ => nofun
  | cons d rest ih =>
    intro before distinct refused
    rw [List.map_cons, List.nodup_cons] at distinct
    rw [link] at refused
    split at refused
    · rename_i known
      cases refused
      exact ⟨d, .head _, known, rfl⟩
    · obtain ⟨other, mem, known, rfl⟩ := ih distinct.2 refused
      refine ⟨other, .tail _ mem, ?_, rfl⟩
      have differs : d.1 ≠ other.1 := fun same =>
        distinct.1 (same ▸ List.mem_map_of_mem mem)
      simpa [differs] using known

theorem contains_link {list : Definitions} {table : Table Statement}
    (linked : link .empty list = .ok table) {name : String} :
    table.contains name ↔ name ∈ list.map (·.1) := by
  rw [Table.contains, Option.isSome_iff_exists, List.mem_map]
  constructor
  · rintro ⟨s, found⟩
    rw [get?_link linked, Table.get?_empty] at found
    rcases found with found | ⟨body, mem, -⟩
    · cases found
    · exact ⟨(name, body), mem, rfl⟩
  · rintro ⟨⟨_, body⟩, mem, rfl⟩
    exact ⟨.block body, (get?_link linked).2 (.inr ⟨body, mem, rfl⟩)⟩

/-- Definitions behind those of a table add the routines that they define by themselves. -/
theorem get?_link_append {list : Definitions} {first second table : Table Statement}
    (linkedSecond : link .empty list = .ok second) (linked : link first list = .ok table)
    (name : String) : table.get? name = (first.get? name).or (second.get? name) := by
  cases known : first.get? name with
  | some s => exact (get?_link linked).2 (.inl known)
  | none =>
    apply Option.ext
    intro s
    rw [get?_link linked, Option.none_or, get?_link linkedSecond, known, Table.get?_empty]

/-- Routines that find their calls among themselves still do so together with others. -/
theorem Resolved.union {first second table : Table Statement} (resolvedFirst : Resolved first)
    (resolvedSecond : Resolved second)
    (both : ∀ name, table.get? name = (first.get? name).or (second.get? name)) :
    Resolved table := by
  have known {name : String} :
      table.contains name ↔ first.contains name ∨ second.contains name := by
    rw [Table.contains, both, Option.isSome_or, Bool.or_eq_true]
    rfl
  intro name s found routine called
  rw [both, Option.or_eq_some_iff] at found
  rcases found with found | ⟨-, found⟩
  · exact known.2 (.inl (resolvedFirst name s found routine called))
  · exact known.2 (.inr (resolvedSecond name s found routine called))

/-! ## Reading two sources -/

theorem routines_of_link_error {actions : Table HostAction} {tokens : List Token}
    {list : Definitions} {after : List TokenKind} {problem : CompileError}
    (starts : (kinds tokens).head? = some (.word "def"))
    (defines : Defines actions list (kinds tokens) (.endOfSource :: after))
    (refused : link .empty list = .error problem) : routines actions tokens = .error problem := by
  rw [routines_of_def starts, definitions_eq defines _ _ rfl, refused]
  rfl

end Grammar

open Grammar

/-- The first token of a source is `def`. -/
def StartsWithRoutine (source : String) : Prop :=
  (tokenize source).toOption.bind (fun tokens => (kinds tokens).head?) = some (.word "def")

instance (source : String) : Decidable (StartsWithRoutine source) :=
  inferInstanceAs (Decidable (_ = _))

theorem StartsWithRoutine.scans {source : String} (h : StartsWithRoutine source) :
    ∃ front, Scans source.toList front ∧ front.head? = some (.word "def") := by
  obtain ⟨tokens, scanned, starts⟩ := Option.bind_eq_some_iff.1 h
  obtain ⟨front, eq, scans⟩ := all_sound (toOption_eq_some.1 scanned)
  refine ⟨front, scans, ?_⟩
  rw [kinds, eq, List.head?_append] at starts
  cases front with
  | nil => cases starts
  | cons kind others => exact starts

section Joined

variable {engine : Engine} {namespaces : List String} {first second : String}
  {firstUnit secondUnit : CompiledUnit}

/-- Compiling two sources together is linking the routines of the second behind those of the
first. -/
theorem Engine.compile_joined (madeFirst : engine.compile first namespaces = .ok firstUnit)
    (madeSecond : engine.compile second namespaces = .ok secondUnit)
    (startsFirst : StartsWithRoutine first) (startsSecond : StartsWithRoutine second)
    (ends : first.endsWith "\n") :
    ∃ list, link .empty list = .ok secondUnit.blocks ∧
      engine.compile (first ++ second) namespaces = (link firstUnit.blocks list).map
        fun blocks => ⟨first ++ second, namespaces, blocks⟩ := by
  obtain ⟨kinds, scans, starts⟩ := startsFirst.scans
  obtain ⟨others, scansOthers, startsOthers⟩ := startsSecond.scans
  obtain ⟨-, -, actions, own, visible, defines, linked, resolved⟩ :=
    (compile_routines_iff scans starts).1 madeFirst
  obtain ⟨-, -, actions', list, visible', definesList, linkedList, resolvedList⟩ :=
    (compile_routines_iff scansOthers startsOthers).1 madeSecond
  obtain rfl : actions = actions' := Except.ok.inj (visible.symm.trans visible')
  have scansBoth : Scans (first ++ second).toList (kinds ++ others) := by
    rw [String.toList_append]
    exact scans.append scansOthers (.inr (endsWith_newline.1 ends))
  have startsBoth : (kinds ++ others).head? = some (.word "def") := by
    rw [List.head?_append, starts]
    rfl
  have definesBoth : Defines actions (own ++ list) (kinds ++ others ++ [.endOfSource])
      [.endOfSource] := by
    obtain ⟨taken, split, anyhow⟩ := defines.transport defines.host_known
    rw [← List.append_cancel_right split] at anyhow
    rw [List.append_assoc]
    exact (anyhow _).append definesList
  have linkedBoth : link .empty (own ++ list) = link firstUnit.blocks list := by
    rw [link_append, linked, ok_bind]
  refine ⟨list, linkedList, ?_⟩
  cases joint : link firstUnit.blocks list with
  | ok table =>
    have union := get?_link_append linkedList joint
    exact (compile_routines_iff scansBoth startsBoth).2 ⟨rfl, rfl, actions, own ++ list, visible,
      definesBoth, linkedBoth.trans joint, resolved.union resolvedList union⟩
  | error problem =>
    obtain ⟨tokens, scanned, eq⟩ := scansBoth.all ⟨1, 1⟩
    have eq : Grammar.kinds tokens = kinds ++ others ++ [.endOfSource] := eq
    have refused : routines actions tokens = .error problem := by
      refine routines_of_link_error ?_ (eq ▸ definesBoth) (linkedBoth.trans joint)
      rw [eq, List.head?_append, startsBoth]
      rfl
    rw [compile, visible, ok_bind, tokenize, scanned, ok_bind, refused]
    rfl

/-- Two sources of routines that compile under some namespaces, the first of which ends its last
line, compile one behind the other exactly if they define no common routine. Then every routine of
either is there as it was; otherwise a routine that both define is reported. -/
theorem joined_sources_compile (madeFirst : engine.compile first namespaces = .ok firstUnit)
    (madeSecond : engine.compile second namespaces = .ok secondUnit)
    (startsFirst : StartsWithRoutine first) (startsSecond : StartsWithRoutine second)
    (ends : first.endsWith "\n") :
    ((∃ unit, engine.compile (first ++ second) namespaces = .ok unit) ↔
      ∀ name, firstUnit.contains name → ¬ secondUnit.contains name) ∧
    (∀ unit, engine.compile (first ++ second) namespaces = .ok unit → ∀ name,
      unit.blocks.get? name = (firstUnit.blocks.get? name).or (secondUnit.blocks.get? name)) ∧
    ((∃ name, firstUnit.contains name ∧ secondUnit.contains name) →
      ∃ name, firstUnit.contains name ∧ secondUnit.contains name ∧
        engine.compile (first ++ second) namespaces = .error (.duplicateRoutine name)) := by
  obtain ⟨list, linked, joint⟩ :=
    Engine.compile_joined madeFirst madeSecond startsFirst startsSecond ends
  have distinct : (list.map (·.1)).Nodup := (link_ok_iff.1 ⟨_, linked⟩).1
  have names {name : String} : secondUnit.contains name ↔ name ∈ list.map (·.1) :=
    contains_link linked
  rw [joint]
  cases both : link firstUnit.blocks list with
  | ok table =>
    have apart : ∀ name, firstUnit.contains name → ¬ secondUnit.contains name := by
      intro name known there
      obtain ⟨d, mem, rfl⟩ := List.mem_map.1 (names.1 there)
      have new := (link_ok_iff.1 ⟨table, both⟩).2 d mem
      rw [CompiledUnit.contains, new] at known
      cases known
    refine ⟨⟨fun _ => apart, fun _ => ⟨_, rfl⟩⟩, ?_, ?_⟩
    · rintro unit made name
      cases made
      exact get?_link_append linked both name
    · rintro ⟨name, known, there⟩
      exact absurd there (apart name known)
  | error problem =>
    obtain ⟨d, mem, known, rfl⟩ := link_error distinct both
    have there : secondUnit.contains d.1 := names.2 (List.mem_map_of_mem mem)
    refine ⟨⟨?_, fun apart => absurd there (apart d.1 known)⟩, ?_, fun _ => ?_⟩
    · rintro ⟨unit, made⟩
      cases made
    · rintro unit made
      cases made
    · exact ⟨d.1, known, there, rfl⟩

end Joined

def ringSource : String := "def ring = \x7b print *ding \x7d\n"

def tollSource : String := "def toll = \x7b try call toll catch with \"depth*\" print &error \x7d"

/-- The bell `ring` again, behind another routine that calls it. -/
def pealSource : String := "def peal = \x7b call ring \x7d def ring = \x7b print *dong \x7d"

/-- The first bell with one that is apart from it, and with one that defines it again. -/
theorem joined_bells_compile :
    (StartsWithRoutine ringSource ∧ StartsWithRoutine tollSource ∧ StartsWithRoutine pealSource ∧
      ringSource.endsWith "\n") ∧
    ∃ ring toll peal, Engine.core.compile ringSource [] = .ok ring ∧
      Engine.core.compile tollSource [] = .ok toll ∧
      Engine.core.compile pealSource [] = .ok peal ∧
      (∃ unit, Engine.core.compile (ringSource ++ tollSource) [] = .ok unit ∧
        ∀ name, unit.blocks.get? name = (ring.blocks.get? name).or (toll.blocks.get? name)) ∧
      ∃ name, ring.contains name ∧ peal.contains name ∧
        Engine.core.compile (ringSource ++ pealSource) [] = .error (.duplicateRoutine name) := by
  have starts : StartsWithRoutine ringSource ∧ StartsWithRoutine tollSource ∧
      StartsWithRoutine pealSource ∧ ringSource.endsWith "\n" := by
    decide +kernel
  have compiles : ((Engine.core.compile ringSource []).toOption.any fun ring =>
      ring.contains "ring" && (Engine.core.compile tollSource []).toOption.isSome &&
        (Engine.core.compile pealSource []).toOption.any (·.contains "ring") &&
        (Engine.core.compile (ringSource ++ tollSource) []).toOption.isSome) = true := by
    decide +kernel
  obtain ⟨ring, madeRing, compiles⟩ := (Option.any_eq_true _ _).1 compiles
  simp only [Bool.and_eq_true] at compiles
  obtain ⟨⟨⟨rings, tolls⟩, peals⟩, joint⟩ := compiles
  obtain ⟨toll, madeToll⟩ := Option.isSome_iff_exists.1 tolls
  obtain ⟨peal, madePeal, peals⟩ := (Option.any_eq_true _ _).1 peals
  obtain ⟨unit, made⟩ := Option.isSome_iff_exists.1 joint
  rw [toOption_eq_some] at madeRing madeToll madePeal made
  obtain ⟨startsRing, startsToll, startsPeal, ends⟩ := starts
  refine ⟨⟨startsRing, startsToll, startsPeal, ends⟩, ring, toll, peal, madeRing, madeToll,
    madePeal, ⟨unit, made, ?_⟩, ?_⟩
  · exact (joined_sources_compile madeRing madeToll startsRing startsToll ends).2.1 unit made
  · exact (joined_sources_compile madeRing madePeal startsRing startsPeal ends).2.2
      ⟨"ring", rings, peals⟩

end ScriptHost
