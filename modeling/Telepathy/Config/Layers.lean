import Telepathy.Config.CommandLine
import Telepathy.Config.Environment
import Telepathy.Config.File

set_option autoImplicit false

/-!
# Loading the configuration

A setting can come from the configuration file, from the environment or from the command line. Each
layer is laid over the ones before it, and all of them over the standard configuration. Loading
fails if the file or the command line does not load, or if the outcome is no configuration; a fault
in the environment comes before any failure.
-/

namespace Telepathy.Config

/-- The layers a configuration is loaded from. -/
structure Layers where
  /-- The text of the configuration file that the command line names, if it names one. -/
  file : Option String
  /-- The variables of the environment, without the program's own part of their names. -/
  environment : SortedMap String String
  arguments : List String

/-- The configuration of the layers; none if it does not load. A command line that repeats the
standard configuration and names no file says nothing. -/
def load (l : Layers) : Except Fault (Option Config) := do
  let environment ← Environment.layer l.environment
  return do
    let file ← File.layer? l.file (l.environment.get? File.locationName)
    let arguments ← CommandLine.layer? l.arguments
    let arguments := if l.file.isNone ∧ arguments = standard.value then .object [] else arguments
    ofValue? ([file, environment, arguments].foldl Value.coveredBy standard.value)

end Telepathy.Config
