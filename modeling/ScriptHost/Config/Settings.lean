import ScriptHost.Toml.Document
/-!
# Settings of a project

What the settings file at the root of a project says: the dispatchers there are, whether changed
handlers and schedules are reloaded by themselves, the pattern of dates in schedules, and
namespaces that scripts may name beyond those of the engine. Every key may be missing; the text
of a date or time is no string here. A group of settings may be written as the list of its
values, of which those beyond the last are passed over.
-/
namespace ScriptHost

def settingsFile : String := "vesper.toml"

structure Settings where
  dispatchers : List String := []
  reloadHandlers : Bool := true
  reloadSchedules : Bool := true
  dateFormat : String := "%Y-%m-%d %H:%M:%S"
  namespaces : List String := []
  deriving DecidableEq, Inhabited

namespace Settings

def string? : Toml.Value → Option String
  | .string s => some s
  | _ => none

def boolean? : Toml.Value → Option Bool
  | .boolean b => some b
  | _ => none

def strings? : Toml.Value → Option (List String)
  | .array items => items.mapM string?
  | _ => none

/-- Reads the settings of a group one by one. With a list of values the names are taken in order. -/
def group? (set : Settings → String → Toml.Value → Option Settings) (names : List String)
    (settings : Settings) : Toml.Value → Option Settings
  | .table entries => entries.foldlM (fun settings (name, value) =>
    set settings name value) settings
  | .array items => (names.zip items).foldlM (fun settings (name, value) =>
    set settings name value) settings
  | _ => none

def setReload (settings : Settings) (name : String) (value : Toml.Value) : Option Settings := do
  match name with
  | "handler" => return { settings with reloadHandlers := ← boolean? value }
  | "schedule" => return { settings with reloadSchedules := ← boolean? value }
  | _ => return settings

def setSchedule (settings : Settings) (name : String) (value : Toml.Value) : Option Settings := do
  match name with
  | "date-format" => return { settings with dateFormat := ← string? value }
  | _ => return settings

def setEngine (settings : Settings) (name : String) (value : Toml.Value) : Option Settings := do
  match name with
  | "namespaces" => return { settings with namespaces := ← strings? value }
  | _ => return settings

def setKey (settings : Settings) (name : String) (value : Toml.Value) : Option Settings := do
  match name with
  | "dispatchers" => return { settings with dispatchers := ← strings? value }
  | "automatic-reload" => group? setReload ["handler", "schedule"] settings value
  | "schedule-setting" => group? setSchedule ["date-format"] settings value
  | "engine" => group? setEngine ["namespaces"] settings value
  | _ => return settings

/-- The settings that a text gives, if it is a document and every setting has its type. -/
def read? (text : String) : Option Settings := do
  let table ← Toml.read? text
  table.toList.foldlM (fun settings (name, value) => setKey settings name value) {}

end Settings
end ScriptHost
