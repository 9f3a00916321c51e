import Telepathy.Connection.Event
import Telepathy.Request.Ledger

set_option autoImplicit false

/-!
# Reports on requests

A channel manager reports on the requests it accepted: channels came into being, a channel that
existed will do, or the request failed. A report takes the requests it names out of the ledger and
answers each of them once. New channels are signalled before any caller is answered, and of the
callers who did not insist on a channel of their own, only one is told to handle it.
-/

namespace Telepathy

/-- The outcome of a report. -/
structure Settlement where
  ledger : RequestLedger
  /-- What the connection does. -/
  events : List Event
  /-- References that are no longer held. -/
  released : List Reference
deriving DecidableEq

/-- A new channel with the requests it satisfies. -/
structure SatisfiedRequests where
  channel : ChannelDetails
  requests : List PendingRequest
deriving DecidableEq

namespace SatisfiedRequests

/-- Whether a requester is going to handle the channel. -/
def suppressHandler (s : SatisfiedRequests) : Bool :=
  s.requests.any (·.method.suppressesHandler)

/-- The signal by which old clients learn of the channel. -/
def announcement (s : SatisfiedRequests) : Signal :=
  .newChannel s.channel.path s.channel.channelType s.channel.entity s.channel.target?
    s.suppressHandler

/-- The answers to a list of requests; `taken` says whether somebody is to handle the channel
already. -/
def answers (channel : ChannelDetails) : Bool → List PendingRequest → List (CallId × Reply)
  | _, [] => []
  | taken, p :: rest =>
    match p.method with
    | .create => (p.call, .created channel) :: answers channel taken rest
    | .ensure => (p.call, .ensured (!taken) channel) :: answers channel true rest
    | .legacy _ => (p.call, .requested channel.path) :: answers channel taken rest

/-- The answers to all requests: whoever asked for a new channel handles it, and otherwise the first
who asked for any. -/
def replies (s : SatisfiedRequests) : List (CallId × Reply) :=
  answers s.channel (s.requests.any (·.method = .create)) s.requests

end SatisfiedRequests

namespace RequestLedger

/-- Takes the requests that a batch of new channels satisfies. -/
def claimBatch (l : RequestLedger) :
    List (ChannelDetails × List RequestToken) →
      Except Fault (List SatisfiedRequests × RequestLedger)
  | [] => .ok ([], l)
  | (channel, tokens) :: batch => do
    let (requests, l) ← l.claimAll tokens
    let (rest, l) ← l.claimBatch batch
    return (⟨channel, requests⟩ :: rest, l)

/-- What a connection at `path` does about new channels: the signals come before the answers. -/
def announce (path : ObjectPath) (batch : List SatisfiedRequests) : List Event :=
  .signal path (.newChannels (batch.map (·.channel))) ::
    (batch.map fun s => .signal path s.announcement) ++
    (batch.flatMap (·.replies)).map fun r => .answered r.1 (.returned r.2)

/-- Carries out a report on a connection at `path`. -/
def settle (l : RequestLedger) (path : ObjectPath) : Report → Except Fault Settlement
  -- Nothing new is no news.
  | .newChannels [] => .ok ⟨l, [], []⟩
  | .newChannels batch => do
    let (satisfied, l) ← l.claimBatch batch
    return ⟨l, announce path satisfied,
      satisfied.flatMap fun s => s.requests.filterMap (·.target)⟩
  | .alreadySatisfied token channel => do
    let (p, l) ← l.claim token
    match p.method with
    | .create => throw (.createSatisfiedByExisting token)
    | .ensure =>
      return ⟨l, [.answered p.call (.returned (.ensured false channel))], p.target.toList⟩
    | .legacy _ =>
      return ⟨l, [.answered p.call (.returned (.requested channel.path))], p.target.toList⟩
  | .failed token e => do
    let (p, l) ← l.claim token
    return ⟨l, [.answered p.call (.failed e)], p.target.toList⟩
  | .closed channel => .ok ⟨l, [.signal path (.channelClosed channel)], []⟩

end RequestLedger

end Telepathy
