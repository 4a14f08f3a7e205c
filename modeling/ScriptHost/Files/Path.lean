/-!
# Paths

A path is a text of components with slashes between them. Slashes in a row count as one, a slash
at the end and components `.` inside a path say nothing; only at the start of a relative path
`.` is a component of its own. Two texts with the same components name the same place.
-/
namespace ScriptHost

inductive PathComponent where
  /-- The slash at the start of an absolute path. -/
  | root
  /-- The `.` at the start of a relative path. -/
  | here
  /-- The component `..`. -/
  | parent
  | name (text : String)
  deriving DecidableEq, Repr

namespace Path

/-- A text cut at its slashes. -/
def cut (path : List Char) : List (List Char) :=
  path.foldr (fun c pieces =>
    match c, pieces with
    | '/', pieces => [] :: pieces
    | c, piece :: pieces => (c :: piece) :: pieces
    | c, [] => [[c]]) [[]]

/-- The component of a piece between slashes, if it says anything. -/
def component? (piece : List Char) : Option PathComponent :=
  if piece = [] ∨ piece = ['.'] then none
  else if piece = ['.', '.'] then some .parent
  else some (.name (String.ofList piece))

def components (path : String) : List PathComponent :=
  match cut path.toList with
  | [] :: pieces@(_ :: _) => .root :: pieces.filterMap component?
  | ['.'] :: pieces => .here :: pieces.filterMap component?
  | pieces => pieces.filterMap component?

def same (path other : String) : Bool := components path == components other

/-- A path as seen from a directory, as a path from where the directory's own path is seen. -/
def join (directory path : String) : String :=
  if directory.isEmpty || path.startsWith "/" then path else directory ++ "/" ++ path

/-- What is left of a list behind another that it starts with. -/
def behind? {α : Type} [DecidableEq α] : List α → List α → Option (List α)
  | [], path => some path
  | _ :: _, [] => none
  | first :: rest, component :: path => if first = component then behind? rest path else none

theorem behind?_eq_some_iff {α : Type} [DecidableEq α] {start path rest : List α} :
    behind? start path = some rest ↔ path = start ++ rest := by
  induction start generalizing path with
  | nil => simp [behind?]
  | cons first start ih =>
    cases path with
    | nil => simp [behind?]
    | cons component path =>
      rw [behind?, List.cons_append, List.cons.injEq]
      split
      · next eq => simp [eq, ih]
      · next ne => simp [Ne.symm ne]

end Path
end ScriptHost
