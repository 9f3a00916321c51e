import Telepathy.Error

set_option autoImplicit false

/-!
# Status of a connection

A connection is new, then connecting, then connected, and at any point it may become disconnected,
for good. Going from new to connected at once passes through connecting on the way. `Status.route`
says which moves exist and how each is carried out.
-/

namespace Telepathy

/-- Where a connection is in its life. -/
inductive Status
  /-- Created; nobody asked to connect yet. -/
  | new
  | connecting
  | connected
  /-- Gone for good. -/
  | disconnected
deriving DecidableEq, Repr

namespace Status

/-- The integer for a status on the bus; a new connection looks disconnected there. -/
def wire : Status → Nat
  | connected => 0
  | connecting => 1
  | disconnected | new => 2

/-- The name of a status. -/
def name : Status → String
  | new => "NEW"
  | connecting => "CONNECTING"
  | connected => "CONNECTED"
  | disconnected => "DISCONNECTED"

/-- The status with a given name. -/
def ofName? (s : String) : Option Status :=
  [new, connecting, connected, disconnected].find? (·.name == s)

end Status

/-- Why the status changed. -/
inductive StatusReason
  | noneSpecified
  | requested
  | networkError
  | authenticationFailed
  | encryptionError
  | nameInUse
  | certNotProvided
  | certUntrusted
  | certExpired
  | certNotActivated
  | certHostnameMismatch
  | certFingerprintMismatch
  | certSelfSigned
  | certOtherError
  | certRevoked
  | certInsecure
  | certLimitExceeded
deriving DecidableEq, Repr

namespace StatusReason

/-- All reasons, by their integer on the bus. -/
def all : List StatusReason :=
  [noneSpecified, requested, networkError, authenticationFailed, encryptionError, nameInUse,
    certNotProvided, certUntrusted, certExpired, certNotActivated, certHostnameMismatch,
    certFingerprintMismatch, certSelfSigned, certOtherError, certRevoked, certInsecure,
    certLimitExceeded]

/-- The integer for a reason on the bus. -/
def wire (r : StatusReason) : Nat := all.idxOf r

/-- The name of a reason. -/
def name : StatusReason → String
  | noneSpecified => "none_specified"
  | requested => "requested"
  | networkError => "network_error"
  | authenticationFailed => "authentication_failed"
  | encryptionError => "encryption_error"
  | nameInUse => "name_in_use"
  | certNotProvided => "cert_not_provided"
  | certUntrusted => "cert_untrusted"
  | certExpired => "cert_expired"
  | certNotActivated => "cert_not_activated"
  | certHostnameMismatch => "cert_hostname_mismatch"
  | certFingerprintMismatch => "cert_fingerprint_mismatch"
  | certSelfSigned => "cert_self_signed"
  | certOtherError => "cert_other_error"
  | certRevoked => "cert_revoked"
  | certInsecure => "cert_insecure"
  | certLimitExceeded => "cert_limit_exceeded"

/-- The reason with a given name. -/
def ofName? (s : String) : Option StatusReason := all.find? (·.name == s)

end StatusReason

/-- The reason given when a connection is torn down by an error. -/
def Error.statusReason (e : Error) : StatusReason :=
  match e.kind with
  | .networkError => .networkError
  | .permissionDenied => .authenticationFailed
  | _ => .noneSpecified

/-- Why a status change is refused. -/
inductive TransitionError
  /-- Life does not go this way. -/
  | illegal (source target : Status)
  /-- A connection cannot be connected without knowing who its user is. -/
  | missingSelfHandle
  /-- The connection is gone. -/
  | terminal
deriving DecidableEq, Repr

namespace TransitionError

/-- The text of a refusal. -/
def message : TransitionError → String
  | illegal source target => s!"illegal status transition from {source.name} to {target.name}"
  | missingSelfHandle => "cannot become connected without a valid self handle"
  | terminal => "connection is disconnected; no further transitions are possible"

/-- The error a client sees. -/
def toError (e : TransitionError) : Error := ⟨.notAvailable, e.message⟩

end TransitionError

/-- How a status change is carried out. -/
inductive Route
  /-- The connection is there already. -/
  | stay
  /-- One step. -/
  | direct
  /-- From new to connected, through connecting. -/
  | viaConnecting
deriving DecidableEq, Repr

namespace Status

/-- How to get from one status to another. -/
def route (source target : Status) : Except TransitionError Route :=
  if source = target then .ok .stay
  else
    match source, target with
    | .disconnected, _ => .error .terminal
    | .new, .connected => .ok .viaConnecting
    | .new, .connecting | .connecting, .connected | _, .disconnected => .ok .direct
    | _, _ => .error (.illegal source target)

end Status

end Telepathy
