import ScriptHost.Digest
import ScriptHost.Script.Evaluation
import ScriptHost.Script.Grammar
/-!
# Engines and compiled units

An engine knows namespaces of host actions. Compiling a source under a list of namespaces makes
the actions of the core namespace and of the listed ones visible, of two with one name that of
the earlier namespace, and yields a unit: the source's digest, the namespaces, and its blocks by
name. A failed compilation leaves nothing behind.

`CompiledUnit.invoke` runs one block. The unit's blocks are what `call` finds meanwhile;
afterwards the context has the routines it had before.
-/
namespace ScriptHost

/-- The namespace that every source sees. -/
def coreNamespace : String := "vesper"

/-- Namespaces of host actions, the core namespace among them. -/
structure Engine where
  namespaces : Table (Table HostAction)
  coreKnown : namespaces.contains coreNamespace

namespace Engine

/-- The engine that knows the core namespace only. -/
def core : Engine := ⟨Table.empty.insert coreNamespace .empty, by simp⟩

def hasNamespace (engine : Engine) (name : String) : Bool := engine.namespaces.contains name

/-- Makes a namespace known, even without actions. -/
def register (engine : Engine) (name : String) : Engine :=
  if engine.hasNamespace name then engine
  else ⟨engine.namespaces.insert name .empty, by simp [engine.coreKnown]⟩

/-- Adds an action to a namespace, in place of one of the same name. -/
def registerAction (engine : Engine) (space name : String) (action : HostAction) : Engine :=
  ⟨engine.namespaces.insert space (((engine.namespaces.get? space).getD .empty).insert name action),
    by simp [engine.coreKnown]⟩

/-- The actions of one table and those of another that it does not name. -/
def merge (earlier later : Table HostAction) : Table HostAction :=
  later.toList.foldl (fun t e => if t.contains e.1 then t else t.insert e.1 e.2) earlier

/-- The actions visible under some namespaces, added to those visible before. -/
def visible (engine : Engine) (before : Table HostAction) :
    List String → Except CompileError (Table HostAction)
  | [] => .ok before
  | name :: rest =>
    match engine.namespaces.get? name with
    | none => .error (.unknownNamespace name)
    | some actions => engine.visible (merge before actions) rest

/-- The actions visible under the core namespace and the requested ones. -/
def actions (engine : Engine) (requested : List String) : Except CompileError (Table HostAction) :=
  engine.visible .empty (coreNamespace :: requested)

end Engine

/-- The result of compiling one source. -/
structure CompiledUnit where
  source : String
  namespaces : List String
  blocks : Table Statement

namespace CompiledUnit

def digest (unit : CompiledUnit) : String := Digest.ofText unit.source

def contains (unit : CompiledUnit) (block : String) : Bool := unit.blocks.contains block

def invoke (unit : CompiledUnit) (block : String) (context : Context) :
    Except ScriptError Value × Context :=
  match unit.blocks.get? block with
  | none => (.error (.blockNotFound block), context)
  | some statement =>
    let (result, after) := statement.run { context with routines := some unit.blocks }
    (result, { after with routines := context.routines })

end CompiledUnit

/-- Compiles a source under some namespaces. -/
def Engine.compile (engine : Engine) (source : String) (namespaces : List String) :
    Except CompileError CompiledUnit := do
  let actions ← engine.actions namespaces
  let tokens ← tokenize source
  let blocks ← Grammar.routines actions tokens
  return { source, namespaces, blocks }

end ScriptHost
