import Telepathy.Text.Digits

set_option autoImplicit false

/-!
# Numbers in words

Words in the environment and on the command line may be integers of 64 bits.
-/

namespace Telepathy.Config

/-- A decimal number of at most 64 bits, with an optional plus sign. -/
def natural? (cs : List Char) : Option Nat :=
  let digits := match cs with
    | '+' :: rest => rest
    | all => all
  if Text.isDecimal digits ∧ Text.decimal digits < Nat.pow 2 64 then some (Text.decimal digits)
  else none

/-- A decimal integer of at most 64 bits with an optional sign. -/
def integer? : List Char → Option Int
  | '-' :: digits =>
    if Text.isDecimal digits ∧ Text.decimal digits ≤ Nat.pow 2 63 then
      some (-(Text.decimal digits : Int))
    else none
  | cs => (natural? cs).map Int.ofNat

end Telepathy.Config
