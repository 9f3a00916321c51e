import Telepathy.Bus.Address

set_option autoImplicit false

/-!
# Names of a connection

A connection is found under a well-known name and an object path, both made of the name of its
manager, its protocol and its account. Protocol and account are arbitrary texts, which `escape`
turns into texts that can stand in either.
-/

namespace Telepathy

namespace Names

/-- One of the sixteen lower-case hexadecimal digits. -/
def hexDigit (n : Nat) : Char := (n % 16).digitChar

/-- Whether a byte is an ASCII letter. -/
def isLetterByte (b : UInt8) : Bool := (65 ≤ b && b ≤ 90) || (97 ≤ b && b ≤ 122)

/-- Whether a byte is an ASCII digit. -/
def isDigitByte (b : UInt8) : Bool := 48 ≤ b && b ≤ 57

/-- A byte as an underscore and two digits. -/
def escapeByte (b : UInt8) : List Char :=
  ['_', hexDigit (b.toNat / 16), hexDigit b.toNat]

/-- A byte of an identifier: itself if it is a letter, or a digit after the first byte. -/
def identifierByte (isFirst : Bool) (b : UInt8) : List Char :=
  if isLetterByte b || (!isFirst && isDigitByte b) then [Char.ofNat b.toNat] else escapeByte b

/-- The identifier for a list of bytes. -/
def escapeBytes : List UInt8 → List Char
  | [] => ['_']
  | b :: rest => identifierByte true b ++ rest.flatMap (identifierByte false)

/-- A text as an identifier of ASCII letters, digits and underscores that starts with no digit. The
escape works on the bytes of the text in UTF-8. -/
def escape (s : String) : String := .ofList (escapeBytes s.toUTF8.data.toList)

end Names

/-- Where a connection is found. -/
structure Names where
  busName : BusName
  path : ObjectPath
deriving DecidableEq, Repr

namespace Names

/-- The names of a connection; the name of its manager is taken as it is. -/
def new (manager protocol account : String) : Names :=
  let protocol := escape protocol
  let account := escape account
  ⟨⟨s!"org.freedesktop.Telepathy.Connection.{manager}.{protocol}.{account}"⟩,
    ⟨s!"/org/freedesktop/Telepathy/Connection/{manager}/{protocol}/{account}"⟩⟩

end Names

end Telepathy
