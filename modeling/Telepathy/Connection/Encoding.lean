import Telepathy.Bus.Basic
import Telepathy.Bus.Encoding
import Telepathy.Connection.Event
import Telepathy.Connection.Interest

set_option autoImplicit false

/-!
# Events as values

The written form of what a connection does: an object with one field that names the event, and one
field for each part. Refusals and changes of interest have a written form as well.
-/

namespace Telepathy

/-! ## Refusals -/

/-- The name of a kind of refusal. -/
def TransitionError.label : TransitionError → String
  | illegal _ _ => "Illegal"
  | missingSelfHandle => "MissingSelfHandle"
  | terminal => "Terminal"

/-- The written form of a refusal. -/
def TransitionError.value (e : TransitionError) : Value :=
  .ofFields [("error", .text e.label), ("message", .text e.message)]

/-- The name of a kind of refusal. -/
def BusRefusal.label : BusRefusal → String
  | registration _ _ => "Registration"
  | nameUnavailable _ _ => "NameUnavailable"

/-- The written form of a refusal. -/
def BusRefusal.value (r : BusRefusal) : Value :=
  .ofFields [("error", .text r.label), ("message", .text r.message)]

/-! ## Interests -/

/-- The written form of a token that became wanted or unwanted. -/
def InterestTransition.value : InterestTransition → Value
  | interested token => .ofTexts ["interested", token]
  | uninterested token => .ofTexts ["uninterested", token]

/-- The name of what to do about watching a client. -/
def Watch.name : Watch → String
  | keep => "keep"
  | start => "start"
  | stop => "stop"

/-- The written form of an update. -/
def InterestUpdate.value (u : InterestUpdate) : Value :=
  .ofFields
    [("transitions", .array (u.transitions.map InterestTransition.value)),
      ("watch", .text u.watch.name)]

/-! ## Events -/

/-- The name of a hook. -/
def Hook.name : Hook → String
  | startConnecting => "start_connecting"
  | connecting => "connecting"
  | connected => "connected"
  | disconnected => "disconnected"
  | shutDown => "shut_down"
  | interested _ => "interested"
  | uninterested _ => "uninterested"

/-- What a hook is about: a token of interest, or the entity type in which connecting starts. -/
def Hook.token : Hook → Value
  | startConnecting => .text EntityType.contact.name
  | interested token | uninterested token => .text token
  | connecting | connected | disconnected | shutDown => .null

/-- The entry point of a manager by which it is offered a request, if the manager treats old clients
like those who ask for any channel. -/
def RequestMethod.entryPoint : RequestMethod → String
  | create => "create"
  | ensure | legacy _ => "ensure"

/-- The fields of a request as it is offered to a manager. -/
def ChannelRequest.fields (r : ChannelRequest) : List (String × Value) :=
  [("via", .text r.method.entryPoint), ("token", .nat r.token.number),
    ("method", .text r.method.name), ("channel_type", .text r.channelType),
    ("entity", .text r.entity.name), ("target", .ofHandle? r.target),
    ("target_id", .ofText? r.targetId), ("properties", .ofProperties r.properties)]

/-- The fields of an answer. -/
def CallAnswer.fields : CallAnswer → List (String × Value)
  | returned r => [("ok", r.value)]
  | failed e => e.fields

/-- The fields of a signal with its path. -/
def Signal.eventFields (path : ObjectPath) (s : Signal) : List (String × Value) :=
  [("path", .text path.text), ("name", .text s.name), ("signal", s.value)]

namespace Event

/-- The name of an event. -/
def name : Event → String
  | nameClaimed _ _ => "request_name"
  | nameReleased _ => "release_name"
  | objectExported _ _ _ => "register"
  | objectWithdrawn _ => "unregister"
  | signal _ _ => "signal"
  | answered _ _ => "reply"
  | watched _ => "watch"
  | unwatched _ => "unwatch"
  | hook _ => "hook"
  | lookup _ _ _ => "lookup"
  | offered _ _ => "offer"
  | notified _ _ => "status"
  | called _ _ => "roster"

/-- The fields of an event beside its name. -/
def fields : Event → List (String × Value)
  | nameClaimed name granted => [("name", .text name.text), ("ok", .bool granted)]
  | nameReleased name => [("name", .text name.text)]
  | objectExported path interfaces granted =>
    [("path", .text path.text), ("interfaces", .ofTexts interfaces), ("ok", .bool granted)]
  | objectWithdrawn path => [("path", .text path.text)]
  | signal path s => s.eventFields path
  | answered call a => ("call", .nat call.number) :: a.fields
  | watched client | unwatched client => [("client", .text client.text)]
  | hook h => [("hook", .text h.name), ("token", h.token)]
  | lookup ticket entity id =>
    [("ticket", .nat ticket.number), ("text", .text ticket.text), ("entity", .text entity.name),
      ("id", .text id)]
  | offered seat r => ("manager", .nat seat) :: r.fields
  | notified seat status => [("manager", .nat seat), ("status", .text status.name)]
  | called _ call => [("call", .text call.text), ("ok", .bool (call.answer = .done))]

/-- The written form of an event. -/
def value (e : Event) : Value := .ofFields (("ev", .text e.name) :: e.fields)

end Event

end Telepathy
