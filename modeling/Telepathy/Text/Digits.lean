set_option autoImplicit false

/-!
# Digits

The numbers of digits in decimal and other notations, and the characters named by numbers.
-/

namespace Telepathy.Text

/-- The number of a decimal digit. -/
def digit (c : Char) : Nat := c.toNat - '0'.toNat

/-- The number of a list of decimal digits. -/
def decimal (digits : List Char) : Nat := digits.foldl (fun n c => 10 * n + digit c) 0

/-- The number of a list of decimal digits with an optional sign in front. -/
def signed : List Char → Int
  | '-' :: digits => -(decimal digits : Int)
  | '+' :: digits => decimal digits
  | digits => decimal digits

/-- Whether characters are a decimal number without sign. -/
def isDecimal (cs : List Char) : Bool := !cs.isEmpty && cs.all Char.isDigit

/-- The number of a hexadecimal digit. -/
def hexDigit? (c : Char) : Option Nat :=
  if c.isDigit then some (digit c)
  else if 'a' ≤ c ∧ c ≤ 'f' then some (c.toNat - 'a'.toNat + 10)
  else if 'A' ≤ c ∧ c ≤ 'F' then some (c.toNat - 'A'.toNat + 10)
  else none

/-- The number of a list of digits in a base of at most 16. -/
def inBase? (base : Nat) (digits : List Char) : Option Nat :=
  digits.foldlM (fun n c => do
    let d ← hexDigit? c
    if d < base then some (base * n + d) else none) 0

/-- The number of a list of hexadecimal digits. -/
def hexadecimal? (digits : List Char) : Option Nat := inBase? 16 digits

/-- The character with a number, if there is one. -/
def character? (n : Nat) : Option Char := if n.isValidChar then some (.ofNat n) else none

end Telepathy.Text
