import ScriptHost.Config.Entry
import ScriptHost.Script.Engine
/-!
# Configuration of schedules

The typed fields of a schedule's entry, and what a change of its keys calls for.
-/
namespace ScriptHost

structure ScheduleConfig where
  /-- The pattern of `start` and `stop`, in place of the common one. -/
  dateFormat : Option String := none
  async : Bool := false
  start : Option String := none
  stop : Option String := none
  period : Option String := none
  namespaces : List String := [coreNamespace]
  execute : Option String := none
  deriving DecidableEq, Inhabited

namespace ScheduleConfig

def setKey (config : ScheduleConfig) (key : String) (value : Toml.Value) :
    Except DecodeProblem ScheduleConfig := do
  match key with
  | "date-format" => return { config with dateFormat := some (← Decode.string value) }
  | "async" => return { config with async := ← Decode.boolean value }
  | "start" => return { config with start := some (← Decode.string value) }
  | "end" => return { config with stop := some (← Decode.string value) }
  | "period" => return { config with period := some (← Decode.string value) }
  | "namespace" => return { config with namespaces := ← Decode.strings value }
  | "execute" => return { config with execute := some (← Decode.script value) }
  | _ => return config

/-- The configuration that an entry gives the schedule `id`. -/
def ofEntry (id : String) (entry : ConfigEntry) : Except ConfigError ScheduleConfig :=
  Decode.entry .schedule id {} setKey entry

end ScheduleConfig

/-- What a change of a schedule's configuration calls for. -/
structure ScheduleChanges where
  recompile : Bool := false
  restart : Bool := false
  deriving DecidableEq, Repr

def ScheduleChanges.add (changes : ScheduleChanges) (key : String) : ScheduleChanges :=
  match key with
  | "namespace" | "execute" => { changes with recompile := true }
  | "async" | "start" | "end" | "period" | "date-format" => { changes with restart := true }
  | _ => changes

def ScheduleChanges.ofKeys (keys : List String) : ScheduleChanges := keys.foldl add {}

end ScriptHost
