import Telepathy.Config.Basic
import Telepathy.Value.Object

set_option autoImplicit false

/-!
# Settings

A configuration is written as an object with one field for every setting. The layers of a
configuration are such objects, in which settings may be missing and other fields do not count.
-/

namespace Telepathy

/-- The settings of a configuration. -/
inductive Setting
  | logFilter
  | logFormat
  | connectionManager
  | rosterQueueLimit
deriving DecidableEq, Repr

namespace Setting

/-- All settings. -/
def all : List Setting := [logFilter, logFormat, connectionManager, rosterQueueLimit]

/-- The key of a setting in the configuration file and in the environment. -/
def key : Setting → String
  | logFilter => "log_filter"
  | logFormat => "log_format"
  | connectionManager => "connection_manager"
  | rosterQueueLimit => "roster_queue_limit"

/-- The value of a setting in a configuration. -/
def valueIn (c : Config) : Setting → Value
  | logFilter => .text c.logFilter
  | logFormat => .text c.logFormat.name
  | connectionManager => .text c.connectionManager
  | rosterQueueLimit => .nat c.rosterQueueLimit

end Setting

/-- The log format of a value: its name, or an object whose one field has this name and is null. -/
def LogFormat.ofValue? : Value → Option LogFormat
  | .text name | .object [(name, .null)] => ofName? name
  | _ => none

namespace Config

/-- A configuration as an object. -/
def value (c : Config) : Value := .ofFields (Setting.all.map fun s => (s.key, s.valueIn c))

/-- The configuration of an object that has all settings, each with a value of the right type. -/
def ofValue? (v : Value) : Option Config := do
  return {
    logFilter := ← (← v.field? Setting.logFilter.key).text?
    logFormat := ← LogFormat.ofValue? (← v.field? Setting.logFormat.key)
    connectionManager := ← (← v.field? Setting.connectionManager.key).text?
    rosterQueueLimit := ← (← v.field? Setting.rosterQueueLimit.key).nat? }

/-- A configuration is read back from the object it is written as. -/
theorem ofValue?_value (c : Config) : ofValue? c.value = some c := by
  have hformat : LogFormat.ofName? c.logFormat.name = some c.logFormat := by
    cases c.logFormat <;> rfl
  simp [value, ofValue?, Setting.all, Setting.key, Setting.valueIn, SortedMap.ofList,
    SortedMap.get?_insert, Value.text?, Value.nat?, Value.nat, LogFormat.ofValue?, hformat]

end Config

end Telepathy
