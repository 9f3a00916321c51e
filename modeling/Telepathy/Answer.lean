import Telepathy.Handle.Basic

set_option autoImplicit false

/-!
# Answers of operations

What an operation that succeeds has to say to whoever asked for it.
-/

namespace Telepathy

/-- What an operation answers. -/
inductive Answer
  | nothing
  | handle (h : Handle)
  | count (n : Nat)
  | flag (b : Bool)
deriving DecidableEq, Repr

/-- The answer for a handle that may be missing. -/
def Answer.ofHandle? : Option Handle → Answer
  | some h => handle h
  | none => nothing

end Telepathy
