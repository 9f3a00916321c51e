import Telepathy.Config.Setting
import Telepathy.Config.Word
import Telepathy.Text.Blank

set_option autoImplicit false

/-!
# Settings on the command line

Every setting has a flag of its own and a letter, both of which take one value; a setting may be
given once, and there is nothing but flags. The value follows as the next argument or, after an
equals sign, in the same one; after a letter it needs no equals sign.
-/

namespace Telepathy

namespace Setting

/-- The flag of a setting. -/
def flag : Setting → String
  | logFilter => "log-filter"
  | logFormat => "log-format"
  | connectionManager => "connection-manager"
  | rosterQueueLimit => "roster-queue-limit"

/-- The letter of a setting: the first one of its flag that no earlier setting has. -/
def letter : Setting → Char
  | logFilter => 'l'
  | logFormat => 'L'
  | connectionManager => 'c'
  | rosterQueueLimit => 'r'

/-- The setting with a given flag. -/
def ofFlag? (s : String) : Option Setting := all.find? (·.flag == s)

/-- The setting with a given letter. -/
def ofLetter? (c : Char) : Option Setting := all.find? (·.letter == c)

end Setting

/-- A log format named without regard to the case of ASCII letters. -/
def LogFormat.ofAnyCase? (s : String) : Option LogFormat := ofName? (Text.lower s)

namespace Config.CommandLine

/-- The setting of an argument, and its value if that is in the same argument. -/
def ofArgument? (arg : String) : Option (Setting × Option String) :=
  match arg.toList with
  | '-' :: '-' :: rest =>
    let value := match rest.dropWhile (· != '=') with
      | _ :: value => some (.ofList value)
      | [] => none
    (Setting.ofFlag? (.ofList (rest.takeWhile (· != '=')))).map (·, value)
  | '-' :: letter :: rest =>
    let value := match rest with
      | [] => none
      | '=' :: value | value => some (.ofList value)
    (Setting.ofLetter? letter).map (·, value)
  | _ => none

/-- Whether an argument looks like a flag, so that it cannot be the value of one. -/
def looksLikeFlag (arg : String) : Bool :=
  match arg.toList with
  | '-' :: _ :: _ => true
  | _ => false

/-- The settings given on the command line, with their texts; none if the command line is
malformed. -/
def given? : List String → Option (List (Setting × String))
  | [] => some []
  -- A double dash ends the flags, and there is nothing else to come after them.
  | "--" :: rest => if rest.isEmpty then some [] else none
  | arg :: rest =>
    match ofArgument? arg, rest with
    | some (s, some value), rest => do
      let more ← given? rest
      if more.any (·.1 = s) then none else some ((s, value) :: more)
    | some (s, none), value :: rest => do
      if looksLikeFlag value then none
      let more ← given? rest
      if more.any (·.1 = s) then none else some ((s, value) :: more)
    | some (_, none), [] => none
    | none, _ => none

/-- The value of a setting in an argument; none if it does not fit the setting. -/
def ofArgumentText? (s : Setting) (text : String) : Option Value :=
  match s with
  | .logFilter | .connectionManager => some (.text text)
  | .logFormat => (LogFormat.ofAnyCase? text).map fun f => .text f.name
  | .rosterQueueLimit => (natural? text.toList).map .nat

/-- What the command line says; none if it is malformed. -/
def layer? (arguments : List String) : Option Value := do
  let fields ← (← given? arguments).mapM fun (s, text) => do
    return (s.key, ← ofArgumentText? s text)
  return .ofFields fields

end Config.CommandLine

end Telepathy
