import Telepathy.Channel.Manager

set_option autoImplicit false

/-!
# A manager that follows a script

The simplest manager of an application's own: a list of rules says what it does with which requests.
It serves to try out connections.
-/

namespace Telepathy

/-- What a scripted manager does with a request. -/
inductive ScriptedAct
  /-- Takes charge, and leaves the request pending. -/
  | hold
  | decline
  /-- Makes a new channel. -/
  | makeNew
  /-- Says that a channel that existed before will do. -/
  | useExisting
  /-- Takes charge, and fails the request. -/
  | fail
  /-- Fails the request, and yet declines it. -/
  | failAndDecline
deriving DecidableEq, Repr

/-- A rule of a script: every part that is given has to match the request. -/
structure ScriptedRule where
  channelType : Option String
  /-- The name of the target's entity type. -/
  entity : Option String
  /-- The name of the requesting call. -/
  method : Option String
  act : ScriptedAct
deriving DecidableEq, Repr

namespace ScriptedRule

/-- Whether a rule is for a request. -/
def fits (rule : ScriptedRule) (r : ChannelRequest) : Bool :=
  rule.channelType.all (· = r.channelType) && rule.entity.all (· = r.entity.name) &&
    rule.method.all (· = r.method.name)

end ScriptedRule

/-- A scripted manager. -/
structure ScriptedManager where
  /-- The position of the manager among all. -/
  seat : Nat
  /-- The path of the connection. -/
  basePath : ObjectPath
  rules : List ScriptedRule
  classes : List ChannelClass
  channels : List ChannelDetails
deriving DecidableEq

namespace ScriptedManager

/-- What the manager does with a request: the first rule that fits decides. -/
def actFor (m : ScriptedManager) (r : ChannelRequest) : ScriptedAct :=
  ((m.rules.find? (·.fits r)).map (·.act)).getD .decline

/-- The channel made for a request. -/
def newChannel (m : ScriptedManager) (r : ChannelRequest) : ChannelDetails :=
  ⟨m.basePath.child s!"C{r.token.number}", r.properties⟩

/-- The report that the manager refuses a request. -/
def refusal (m : ScriptedManager) (r : ChannelRequest) : Effect :=
  .report (.failed r.token ⟨.notAvailable, s!"refused by manager {m.seat}"⟩)

/-- The answer to a request. -/
def respond (m : ScriptedManager) (r : ChannelRequest) : Response ScriptedManager :=
  match m.actFor r with
  | .hold => ⟨.accepted, m, []⟩
  | .decline => ⟨.declined, m, []⟩
  | .makeNew =>
    ⟨.accepted, { m with channels := m.channels ++ [m.newChannel r] },
      [.report (.newChannels [(m.newChannel r, [r.token])])]⟩
  | .useExisting =>
    ⟨.accepted, m, [.report (.alreadySatisfied r.token ⟨m.basePath.child "E", r.properties⟩)]⟩
  | .fail => ⟨.accepted, m, [m.refusal r]⟩
  | .failAndDecline => ⟨.declined, m, [m.refusal r]⟩

/-- How scripted managers behave. -/
def behaviour : Behaviour ScriptedManager where
  channels := channels
  classes := classes
  create := respond
  ensure := respond

end ScriptedManager

end Telepathy
