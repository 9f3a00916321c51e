import Telepathy.ContactList.Client

set_option autoImplicit false

/-!
# Requests for lists and groups

A contact list takes charge of every request for a channel of its type with a list or a group as
target. A channel that clients know of satisfies the request; before the roster arrived the request
waits on the channel; a group that does not exist is created, if clients may create groups. What
cannot be served is reported as failed.
-/

namespace Telepathy.ContactScene

variable {σ : Type} (server : ContactServer σ)

/-- Lets the channel of a target, if it exists, satisfy a request, now or when clients are told of
it. -/
def satisfy (s : ContactScene σ) (t : ContactTarget) (token : RequestToken) : ContactScene σ :=
  match s.list.channels.get? t with
  | none => s
  | some c =>
    if c.announced then s.emit (.report (.alreadySatisfied token (c.details t)))
    else { s with list := s.list.put t (c.queue token) }

/-- Announces the channel of a target, if it exists, with one more request than wait for it. -/
def announceFor (s : ContactScene σ) (t : ContactTarget) (token : RequestToken) :
    ContactScene σ :=
  match s.list.channels.get? t with
  | none => s
  | some c =>
    { s with list := s.list.put t c.announce }.emit
      (.report (.newChannels [(c.details t, c.queued ++ [token])]))

/-- The list a request asks for. -/
def checkListRequest (l : ContactList) (r : ChannelRequest) :
    Except ContactListRefusal ListKind := do
  let name := r.targetId.getD ""
  match ListKind.ofName? name with
  | none => throw (.unknownList name)
  | some k =>
    if !k.isSupported l.capabilities then throw (.unsupportedList name)
    if r.method = .create then throw (.listExists name)
    l.checkServable
    return k

/-- Serves a request for a list. -/
def requestList (s : ContactScene σ) (r : ChannelRequest) : ContactOutcome σ :=
  match checkListRequest s.list r with
  | .error refusal => (.error refusal, s)
  | .ok k =>
    match s.openChannel (.list k) false with
    | .error e => (.error (.handle e), s)
    | .ok s => (.ok (), s.satisfy (.list k) r.token)

/-- The group a request asks for. -/
def checkGroupRequest (l : ContactList) (r : ChannelRequest) :
    Except ContactListRefusal String := do
  if !l.capabilities.groups.isSupported then throw .groupsUnsupported
  let id := r.targetId.getD ""
  match server.normaliseGroup id with
  | none => throw (.badGroupId id)
  | some name =>
    l.checkServable
    return name

/-- Creates a group on the server for the sake of a request, and announces it. -/
def createGroupFor (s : ContactScene σ) (name : String) (token : RequestToken) :
    ContactOutcome σ :=
  if !s.list.capabilities.groups.isEditable then (.error (.groupNotCreatable name), s)
  else
    match s.call server (.createGroups [name]) with
    | (some e, s) => (.error (.server e), s)
    | (none, s) =>
      match s.openChannel (.group name) true with
      | .error e => (.error (.handle e), s)
      | .ok s => (.ok (), s.announceFor (.group name) token)

/-- Serves a request for a group. -/
def requestGroup (s : ContactScene σ) (r : ChannelRequest) : ContactOutcome σ :=
  match checkGroupRequest server s.list r with
  | .error refusal => (.error refusal, s)
  | .ok name =>
    if (s.list.group? name).isSome then
      if r.method = .create then (.error (.groupExists name), s)
      else (.ok (), s.satisfy (.group name) r.token)
    else if s.list.roster = .received then s.createGroupFor server name r.token
    else
      -- Whether the server knows the group will turn out when the roster arrives.
      match s.openChannel (.group name) true with
      | .error e => (.error (.handle e), s)
      | .ok s => (.ok (), s.satisfy (.group name) r.token)

/-- Reports a request as failed if it could not be served. -/
def conclude (token : RequestToken) (outcome : ContactOutcome σ) : ContactScene σ :=
  match outcome with
  | (.ok (), s) => s
  | (.error refusal, s) => s.fail [token] refusal.toError

/-- Offers a request to the contact list. -/
def offer (s : ContactScene σ) (r : ChannelRequest) : Offer × ContactScene σ :=
  if r.channelType ≠ Property.contactListType then (.declined, s)
  else
    match r.entity with
    | .list => (.accepted, conclude r.token (s.requestList r))
    | .group => (.accepted, conclude r.token (s.requestGroup server r))
    | .none | .contact | .room => (.declined, s)

end Telepathy.ContactScene
