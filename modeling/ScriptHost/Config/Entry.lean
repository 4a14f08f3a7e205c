import ScriptHost.Text.Quoted
import ScriptHost.Toml.Value
/-!
# Configuration entries

An entry is one top-level table of a configuration file. Handlers and schedules keep the entry
they were configured with, and `changedKeys` says which keys a new one changes.

`Decode` reads the typed fields of an entry. Keys are read in their order, keys without a
meaning are passed over, and the first that has the wrong type is reported. A date or time is
accepted wherever a string is.
-/
namespace ScriptHost

abbrev ConfigEntry := Table Toml.Value

namespace ConfigEntry

def same (entry other : ConfigEntry) : Bool := Toml.Value.sameEntries entry.entries other.entries

/-- Whether a key has the same value in both entries, or is in neither. -/
def agreesOn (entry other : ConfigEntry) (key : String) : Bool :=
  match entry.get? key, other.get? key with
  | none, none => true
  | some value, some new => value.same new
  | _, _ => false

/-- The keys whose values differ between two entries, in ascending order. -/
def changedKeys (entry other : ConfigEntry) : List String :=
  let keys : Table Unit := .ofList ((entry.keys ++ other.keys).map fun key => (key, ()))
  keys.keys.filter fun key => !entry.agreesOn other key

/-- Whether an entry is switched off, by `disable = true`. -/
def isDisabled (entry : ConfigEntry) : Bool :=
  match entry.get? "disable" with
  | some (.boolean b) => b
  | _ => false

end ConfigEntry

/-- What is wrong with the value of a key. -/
inductive DecodeProblem where
  | wrongType (found : Toml.Value) (expected : String)
  /-- The value has none of the forms that the named shape allows. -/
  | noVariant (shape : String)

/-- Doubles in decoding problems always have their point in place. -/
def DecodeProblem.layout : DecimalLayout where
  smallestPlain := -400
  largestPlain := 400
  plusSign := false
  tieUp := true

/-- How a decoding problem names a value. -/
def DecodeProblem.described : Toml.Value → String
  | .string s => "string " ++ quotedForDiagnostics s
  | .datetime d => "string " ++ quotedForDiagnostics d.text
  | .integer n => "integer `" ++ toString n.toInt ++ "`"
  | .float x => "floating point `" ++ layout.text x ++ "`"
  | .boolean b => "boolean `" ++ (if b then "true" else "false") ++ "`"
  | .array _ => "sequence"
  | .table _ => "map"

def DecodeProblem.message : DecodeProblem → String
  | wrongType found expected => "invalid type: " ++ described found ++ ", expected " ++ expected
  | noVariant shape => "data did not match any variant of untagged enum " ++ shape

/-- What an entry configures. -/
inductive EntryKind where
  | handler
  | schedule
  deriving DecidableEq, Repr

def EntryKind.name : EntryKind → String
  | handler => "handler"
  | schedule => "schedule"

/-- The first key of an entry that cannot be read. -/
structure ConfigError where
  kind : EntryKind
  id : String
  key : String
  problem : DecodeProblem

def ConfigError.message (e : ConfigError) : String :=
  "Invalid " ++ e.kind.name ++ " '" ++ e.id ++ "': " ++ e.problem.message ++ "\nin `" ++
    e.key ++ "`\n"

namespace Decode

/-- A string, or a date or time as its text. -/
def text? : Toml.Value → Option String
  | .string s => some s
  | .datetime d => some d.text
  | _ => none

/-- One string or a list of strings. -/
def texts? : Toml.Value → Option (List String)
  | .array items => items.mapM text?
  | value => (text? value).map fun s => [s]

def string (value : Toml.Value) : Except DecodeProblem String :=
  match text? value with
  | some s => .ok s
  | none => .error (.wrongType value "a string")

def integer (value : Toml.Value) : Except DecodeProblem Int64 :=
  match value with
  | .integer n => .ok n
  | _ => .error (.wrongType value "i64")

def boolean (value : Toml.Value) : Except DecodeProblem Bool :=
  match value with
  | .boolean b => .ok b
  | _ => .error (.wrongType value "a boolean")

/-- One string or a list of strings, as a list. -/
def strings (value : Toml.Value) : Except DecodeProblem (List String) :=
  match texts? value with
  | some list => .ok list
  | none => .error (.noVariant "OneOrMany")

/-- A script, given as one text or as the list of its lines. -/
def script (value : Toml.Value) : Except DecodeProblem String :=
  match texts? value with
  | some lines => .ok ("\n".intercalate lines)
  | none => .error (.noVariant "OneOrMany")

/-- Reads an entry key by key. -/
def entry {α : Type} (kind : EntryKind) (id : String) (start : α)
    (set : α → String → Toml.Value → Except DecodeProblem α) (table : ConfigEntry) :
    Except ConfigError α :=
  table.toList.foldlM (fun config (key, value) =>
    (set config key value).mapError fun problem => ⟨kind, id, key, problem⟩) start

end Decode
end ScriptHost
