import ScriptHost.Toml.Value
/-!
# Tables under construction

While a document is read, a table knows how it came to be: by a header of its own, as the parent
of a header or of a dotted key, or inside braces. That decides what may still be added to it; no
table is defined twice, and a key that is taken is never taken again.

`Draft.close` forgets this and leaves the finished value.
-/
namespace ScriptHost.Toml

/-- How a table came to be. -/
inductive Origin where
  /-- By a header of its own, or as the root of a document or of an inline table. -/
  | explicit
  /-- As a parent in the header of another table. -/
  | implied
  /-- As a parent in a dotted key. -/
  | dotted
  deriving DecidableEq, Repr

inductive Draft where
  | leaf (value : Value)
  | table (origin : Origin) (entries : List (String × Draft))
  /-- An array of tables, the last one first. -/
  | tables (elements : List (List (String × Draft)))
  deriving Inhabited

namespace Draft

abbrev Entries := List (String × Draft)

def find? (key : String) (entries : Entries) : Option Draft := Table.lookup key entries

def put (key : String) (draft : Draft) : Entries → Entries
  | [] => [(key, draft)]
  | (other, old) :: rest => if other = key then (key, draft) :: rest
    else (other, old) :: put key draft rest

/-- Goes down a path of keys and changes the table at its end; tables on the way are made where
there is none. Of an array of tables the last one is entered. With `byKey` the path belongs to a
dotted key, which may not enter a table that has a header of its own. -/
def descend (byKey : Bool) (change : Origin → Entries → Option Entries) (origin : Origin)
    (entries : Entries) : List String → Option Entries
  | [] => change origin entries
  | key :: path =>
    let made : Origin := if byKey then .dotted else .implied
    match find? key entries with
    | none => do
      let inner ← descend byKey change made [] path
      return put key (.table made inner) entries
    | some (.leaf _) => none
    | some (.tables []) => none
    | some (.tables (last :: before)) => do
      let inner ← descend byKey change .explicit last path
      return put key (.tables (inner :: before)) entries
    | some (.table inside old) => do
      if byKey && inside == .explicit then none
      let inner ← descend byKey change inside old path
      return put key (.table inside inner) entries

/-- Adds a value under a dotted key, given its parents and its last part. -/
def addValue (parents : List String) (key : String) (value : Value) (entries : Entries) :
    Option Entries :=
  let add (origin : Origin) (inner : Entries) : Option Entries :=
    let underKey := origin == .dotted
    if underKey == parents.isEmpty then none
    else if (find? key inner).isSome then none
    else some (put key (.leaf value) inner)
  descend true add .explicit entries parents

/-- Opens the table of a header; one that so far was only implied is kept. -/
def openTable (parents : List String) (key : String) (root : Entries) : Option Entries :=
  let opened (_ : Origin) (inner : Entries) : Option Entries :=
    match find? key inner with
    | none => some (put key (.table .explicit []) inner)
    | some (.table .implied entries) => some (put key (.table .explicit entries) inner)
    | some _ => none
  descend false opened .explicit root parents

/-- Opens a further table of an array of tables. -/
def openElement (parents : List String) (key : String) (root : Entries) : Option Entries :=
  let opened (_ : Origin) (inner : Entries) : Option Entries :=
    match find? key inner with
    | none => some (put key (.tables [[]]) inner)
    | some (.tables elements) => some (put key (.tables ([] :: elements)) inner)
    | some _ => none
  descend false opened .explicit root parents

/-- Changes the table that a header has opened. -/
def within (change : Entries → Option Entries) (path : List String) (root : Entries) :
    Option Entries :=
  descend false (fun _ inner => change inner) .explicit root path

mutual

/-- The finished value. -/
def close : Draft → Value
  | leaf value => value
  | table _ entries => .table (Table.ofList (closeEntries entries)).toList
  | tables elements => .array (closeElements elements).reverse

def closeEntries : List (String × Draft) → List (String × Value)
  | [] => []
  | (key, draft) :: rest => (key, draft.close) :: closeEntries rest

def closeElements : List (List (String × Draft)) → List Value
  | [] => []
  | entries :: rest => .table (Table.ofList (closeEntries entries)).toList :: closeElements rest

end

end Draft
end ScriptHost.Toml
