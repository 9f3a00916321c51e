set_option autoImplicit false

/-!
# Errors on the bus

A method call that fails is answered with an `Error`: one of eight kinds, each with a qualified name
on the bus, and a message for people. The parts of the connection have causes of failure of their
own, which they turn into an `Error` where a client is to see them.
-/

namespace Telepathy

/-- The kinds of error a client can receive. -/
inductive ErrorKind
  /-- Malformed or contradictory arguments. -/
  | invalidArgument
  /-- A handle or identifier names nothing. -/
  | invalidHandle
  /-- Nothing in the connection serves the request. -/
  | notImplemented
  /-- The request cannot be served now. -/
  | notAvailable
  /-- Policy forbids the operation. -/
  | permissionDenied
  /-- The connection is not connected. -/
  | disconnected
  /-- The network failed. -/
  | networkError
  /-- The operation was abandoned. -/
  | cancelled
deriving DecidableEq, Repr

namespace ErrorKind

/-- The last part of the qualified name. -/
def shortName : ErrorKind → String
  | invalidArgument => "InvalidArgument"
  | invalidHandle => "InvalidHandle"
  | notImplemented => "NotImplemented"
  | notAvailable => "NotAvailable"
  | permissionDenied => "PermissionDenied"
  | disconnected => "Disconnected"
  | networkError => "NetworkError"
  | cancelled => "Cancelled"

/-- All kinds, in the order of their declaration. -/
def all : List ErrorKind :=
  [invalidArgument, invalidHandle, notImplemented, notAvailable, permissionDenied, disconnected,
    networkError, cancelled]

/-- The kind with a given short name. -/
def ofShortName? (s : String) : Option ErrorKind := all.find? (·.shortName == s)

/-- The words that open the text of an error of this kind. -/
def lead : ErrorKind → String
  | invalidArgument => "invalid argument"
  | invalidHandle => "invalid handle"
  | notImplemented => "not implemented"
  | notAvailable => "not available"
  | permissionDenied => "permission denied"
  | disconnected => "disconnected"
  | networkError => "network error"
  | cancelled => "cancelled"

end ErrorKind

/-- An error as a client receives it. -/
structure Error where
  kind : ErrorKind
  message : String
deriving DecidableEq, Repr

namespace Error

/-- The qualified name of the error on the bus. -/
def name (e : Error) : String := "org.freedesktop.Telepathy.Error." ++ e.kind.shortName

/-- The error as one line of text. -/
def text (e : Error) : String := e.kind.lead ++ ": " ++ e.message

/-- What every call on a connection that is not connected is told. -/
def notConnected : Error := ⟨.disconnected, "Connection is disconnected"⟩

end Error

end Telepathy
