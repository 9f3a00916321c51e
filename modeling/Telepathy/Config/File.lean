import Telepathy.FileTree.Path
import Telepathy.Toml.Reader

set_option autoImplicit false

/-!
# Settings in the configuration file

The configuration file is a TOML document, which may hold more than the settings. The command line
names it; if it names none, a variable of the environment may. What that variable names is in the
standard file tree, and so no configuration, or it is not there at all.
-/

namespace Telepathy.Config.File

/-- The key by which a file builds on another one. -/
def extensionKey : String := "extends"

/-- The variable that names the configuration file for a command line that names none. -/
def locationName : String := "CONFIG_PATH"

/-- What the text of a configuration file says, none if it is malformed. A file that builds on
another one does not load, since there is only one. -/
def ofText? (text : String) : Option Value := do
  let v ← Toml.parse? text
  if (v.field? extensionKey).isSome then none else some v

/-- What the configuration file says, none if it does not load. If nothing is at its location, the
file says nothing; an empty location is none. -/
def layer? (text location : Option String) : Option Value :=
  match text with
  | some text => ofText? text
  | none =>
    match (location.filter (· ≠ "")).map FileTree.find with
    | none | some .absent => some (.object [])
    | some (.found _) | some .refused => none

end Telepathy.Config.File
