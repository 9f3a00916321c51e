import Telepathy.Group.Flags
import Telepathy.Text.Bytes

set_option autoImplicit false

/-!
# Faults

A fault is a broken promise within the program, not a failure that a client is told of: a membership
batch that contradicts itself, say, or a report on a request that is not pending. There is nothing
sensible to go on with, so a fault ends the run; what was sent before it stays sent.
-/

namespace Telepathy

/-- A request offered to channel managers, as managers name it in their reports. -/
structure RequestToken where
  number : Nat
deriving DecidableEq, Repr

/-- A token in messages. -/
def RequestToken.text (t : RequestToken) : String := s!"request#{t.number}"

/-- A promise that was broken. -/
inductive Fault
  /-- A membership batch sends one handle to two places. -/
  | overlappingChange
  /-- A handle is in two of the sets of a group. -/
  | overlappingSets
  /-- Flags are to be both set and cleared. -/
  | contradictoryFlags (flags : GroupFlags)
  /-- A report names a request that is not in flight. -/
  | notInFlight (token : RequestToken)
  /-- A request for a new channel was reported as satisfied by an old one. -/
  | createSatisfiedByExisting (token : RequestToken)
  /-- A text is to be cut to a number of bytes that ends inside a character. -/
  | splitCharacter (text : String) (size : Nat)
deriving DecidableEq, Repr

/-- The message about a cut that ends inside a character: it names the character, the bytes that it
takes and the text, of which it shows 256 bytes at most. -/
def splitMessage (text : String) (size : Nat) : String :=
  let before := Text.takeBytes size text.toList
  let start := (String.ofList before).utf8ByteSize
  let cut := (text.toList.drop before.length).take 1
  let stop := start + (String.ofList cut).utf8ByteSize
  let shown := Text.takeBytes 256 text.toList
  let ellipsis := if shown = text.toList then "" else "[...]"
  s!"byte index {size} is not a char boundary; it is inside '{String.ofList cut}' " ++
    s!"(bytes {start}..{stop}) of `{String.ofList shown}`{ellipsis}"

/-- The text of a fault. -/
def Fault.message : Fault → String
  | overlappingChange => "membership change inputs overlap"
  | overlappingSets => "membership sets overlap"
  | contradictoryFlags flags => s!"flags GroupFlags({flags.text}) both added and removed"
  | notInFlight token => s!"{token.text} satisfied twice or never dispatched"
  | createSatisfiedByExisting token =>
    s!"{token.text}: CreateChannel cannot be satisfied by an existing channel"
  | splitCharacter text size => splitMessage text size

end Telepathy
