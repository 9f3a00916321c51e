import Telepathy.Text.Digits
import Telepathy.Value.Basic

set_option autoImplicit false

/-!
# Numerals

The number of a JSON numeral: an integer if it has neither a point nor an exponent and fits 64 bits,
otherwise a fraction. A numeral that is out of range has no number.
-/

namespace Telepathy.Json

/-- Appends decimal digits to a number while the result fits 64 bits; gives the other digits. -/
def appendDigits (n : Nat) : List Char → Nat × List Char
  | [] => (n, [])
  | c :: rest =>
    let m := 10 * n + Text.digit c
    if m < Nat.pow 2 64 then appendDigits m rest else (n, c :: rest)

/-- The fraction with given digits before and after the point, scaled by a power of ten. Digits that
do not fit count only for the size of the number. -/
def fraction? (negative : Bool) (whole places : List Char) (power : Int) : Option Number :=
  let (n, further) := appendDigits 0 whole
  let (n, dropped) := appendDigits n places
  let point : Int := further.length - (places.length - dropped.length : Nat)
  (Binary64.ofDecimal? negative n (point + power)).map .fraction

/-- The number of a numeral without a point and an exponent. -/
def integer? (negative : Bool) (digits : List Char) : Option Number :=
  let n := Text.decimal digits
  -- What fits neither a signed nor an unsigned word of 64 bits is no integer, nor is minus zero.
  if !negative && n < Nat.pow 2 64 then some (.natural n)
  else if negative && 0 < n && n ≤ Nat.pow 2 63 then some (.negative (n - 1))
  else fraction? negative digits [] 0

/-- The number of a numeral without its sign. -/
def unsigned? (negative : Bool) (cs : List Char) : Option Number :=
  let whole := cs.takeWhile Char.isDigit
  match cs.dropWhile Char.isDigit with
  | [] => integer? negative whole
  | '.' :: rest =>
    let places := rest.takeWhile Char.isDigit
    fraction? negative whole places (Text.signed ((rest.dropWhile Char.isDigit).drop 1))
  | _ :: rest => fraction? negative whole [] (Text.signed rest)

/-- The number of a numeral. -/
def numeral? : List Char → Option Number
  | '-' :: cs => unsigned? true cs
  | cs => unsigned? false cs

/-- Whether a character may stand in a numeral. -/
def isNumeral (c : Char) : Bool :=
  c.isDigit || c = '-' || c = '+' || c = '.' || c = 'e' || c = 'E'

end Telepathy.Json
