import Telepathy.Error

set_option autoImplicit false

/-!
# Configuration

What the operator of a connection manager can set: how it logs, the name under which its connections
appear on the bus, and how many contact-list requests may wait for the roster.
-/

namespace Telepathy

/-- The format of log lines. -/
inductive LogFormat
  /-- One object per line, for machines. -/
  | json
  /-- One short line, for people. -/
  | compact
deriving DecidableEq, Repr

/-- The name of a log format. -/
def LogFormat.name : LogFormat → String
  | json => "json"
  | compact => "compact"

/-- The log format with exactly this name. -/
def LogFormat.ofName? (s : String) : Option LogFormat := [json, compact].find? (·.name == s)

/-- The configuration of a connection manager. -/
structure Config where
  logFilter : String
  logFormat : LogFormat
  /-- The manager's name in bus names and object paths. -/
  connectionManager : String
  /-- How many contact-list requests may wait for the roster. -/
  rosterQueueLimit : Nat
deriving DecidableEq, Repr

namespace Config

/-- The configuration of an operator who sets nothing. -/
def standard : Config where
  logFilter := "info"
  logFormat := .json
  connectionManager := "rust"
  rosterQueueLimit := 256

end Config

/-- Why a manager's name cannot be part of a bus name. -/
inductive ManagerNameFlaw
  | empty
  | noLeadingLetter
  | strangeCharacter
deriving DecidableEq, Repr

/-- The text of a flaw. -/
def ManagerNameFlaw.message : ManagerNameFlaw → String
  | empty => "name is empty"
  | noLeadingLetter => "name must start with an ASCII letter"
  | strangeCharacter => "only ASCII letters, digits and '_' are allowed"

namespace Config

/-- Whether a character may stand in a manager's name. -/
def isNameChar (c : Char) : Bool := c.isAlphanum || c == '_'

/-- What is wrong with a manager's name, if anything: it has to be an ASCII letter followed by ASCII
letters, digits and underscores. -/
def managerNameFlaw? : List Char → Option ManagerNameFlaw
  | [] => some .empty
  | c :: rest =>
    if !c.isAlpha then some .noLeadingLetter
    else if !rest.all isNameChar then some .strangeCharacter
    else none

/-- Checks what loading cannot check: that the manager's name can be part of a bus name. -/
def validate (c : Config) : Except Error Unit :=
  match managerNameFlaw? c.connectionManager.toList with
  | none => .ok ()
  | some flaw =>
    .error ⟨.invalidArgument,
      s!"invalid connection manager name '{c.connectionManager}': {flaw.message}"⟩

end Config

end Telepathy
