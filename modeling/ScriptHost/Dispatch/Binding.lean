import ScriptHost.Dispatch.Graph
/-!
# Binding handlers

A handler is bound to the dispatchers that its configuration names and that are registered.
Whenever a handler leaves a dispatcher, or its place or its source there may have changed, the
dispatcher's program is replaced; only a new handler leaves that to whoever made it, so that
many handlers can be made before the dispatchers are compiled once.
-/
namespace ScriptHost.DispatchGraph

/-- Parts a handler from a dispatcher and replaces its program. -/
def leave (h : Key .handler) (g : DispatchGraph) (d : Key .dispatcher) : DispatchGraph :=
  (g.removeMember d h).recompile d

/-- Adds a handler to a dispatcher; with `reorder` its program is replaced. -/
def join (h : Key .handler) (reorder : Bool) (g : DispatchGraph) (d : Key .dispatcher) :
    DispatchGraph :=
  let g := g.addMember d h
  if reorder then g.recompile d else g

/-- Parts a handler from those of some dispatchers that its configuration no longer names, and
replaces their programs; with `reorder` also those of the dispatchers it keeps. Yields the kept
ones. -/
def leaveUnnamed (h : Key .handler) (named : List String) (reorder : Bool) :
    DispatchGraph → List (Key .dispatcher) → DispatchGraph × List (Key .dispatcher)
  | g, [] => (g, [])
  | g, d :: rest =>
    match g.dispatchers.get? d with
    | none => leaveUnnamed h named reorder g rest
    | some dispatcher =>
      if named.contains dispatcher.id then
        let g := if reorder then g.recompile d else g
        let (g, kept) := leaveUnnamed h named reorder g rest
        (g, d :: kept)
      else leaveUnnamed h named reorder (g.leave h d) rest

def isBoundTo (g : DispatchGraph) (bound : List (Key .dispatcher)) (id : String) : Bool :=
  bound.any fun d => (g.dispatchers.get? d).any (·.id == id)

/-- Adds a handler to the registered dispatchers of some ids that are not yet among the bound
ones; with `reorder` their programs are replaced. Yields all bound ones. -/
def joinNamed (h : Key .handler) (reorder : Bool) :
    DispatchGraph → List (Key .dispatcher) → List String → DispatchGraph × List (Key .dispatcher)
  | g, bound, [] => (g, bound)
  | g, bound, id :: rest =>
    if g.isBoundTo bound id then joinNamed h reorder g bound rest
    else
      match g.registry.get? id with
      | none => joinNamed h reorder g bound rest
      | some d => joinNamed h reorder (g.join h reorder d) (bound ++ [d]) rest

/-- Notes what a handler is bound to. -/
def setBound (g : DispatchGraph) (h : Key .handler) (bound : List (Key .dispatcher)) :
    DispatchGraph :=
  { g with handlers := g.handlers.modify h fun handler => { handler with bound } }

/-- Binds a handler to exactly those registered dispatchers that its configuration names. A
dispatcher that it leaves gets a new program; with `reorder` so do the others. -/
def rebind (g : DispatchGraph) (h : Key .handler) (reorder : Bool) : DispatchGraph :=
  match g.handlers.get? h with
  | none => g
  | some handler =>
    let (g, kept) := leaveUnnamed h handler.config.bind reorder g handler.bound
    let (g, bound) := joinNamed h reorder g kept handler.config.bind
    g.setBound h bound

/-- Parts a handler from all its dispatchers and replaces their programs. -/
def unbindAll (g : DispatchGraph) (h : Key .handler) : DispatchGraph :=
  match g.handlers.get? h with
  | none => g
  | some handler => handler.bound.foldl (leave h) (g.setBound h [])

def boundOf (g : DispatchGraph) (h : Key .handler) : List (Key .dispatcher) :=
  match g.handlers.get? h with
  | none => []
  | some handler => handler.bound

/-- Replaces the programs of the dispatchers that a handler is bound to. -/
def recompileBound (g : DispatchGraph) (h : Key .handler) : DispatchGraph :=
  g.recompileEach (g.boundOf h)

/-- Makes a handler from an entry, under the next key: compiled, and bound to the dispatchers
that it names, whose programs stay as they are. -/
def create (g : DispatchGraph) (id : String) (entry : ConfigEntry) :
    Except ConfigError DispatchGraph := do
  let config ← HandlerConfig.ofEntry id entry
  let key := g.handlers.nextKey
  let g := { g with handlers := g.handlers.add { id, entry, config } }
  return (g.recompileHandler key).1.rebind key false

/-- Gives a handler a new entry, and does what the changed keys call for. An entry that cannot
be read changes nothing. -/
def update (g : DispatchGraph) (h : Key .handler) (entry : ConfigEntry) :
    DispatchGraph × HandlerChanges :=
  match g.handlers.get? h with
  | none => (g, {})
  | some handler =>
    match HandlerConfig.ofEntry handler.id entry with
    | .error _ => (g, {})
    | .ok config =>
      let changes := HandlerChanges.ofKeys (handler.entry.changedKeys entry)
      let g := { g with handlers := g.handlers.modify h fun handler =>
        { handler with entry, config } }
      let (g, recompiled) := if changes.recompile then g.recompileHandler h else (g, false)
      if changes.rebind then (g.rebind h changes.reorder, changes)
      else if changes.reorder || recompiled then (g.recompileBound h, changes)
      else (g, changes)

/-- Lets a handler go; it runs on in the programs that it is part of until they are replaced. -/
def drop (g : DispatchGraph) (h : Key .handler) : DispatchGraph :=
  { g with handlers := g.handlers.erase h }

end ScriptHost.DispatchGraph
