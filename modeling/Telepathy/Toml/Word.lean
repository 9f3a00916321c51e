import Telepathy.Toml.Time
import Telepathy.Value.Basic

set_option autoImplicit false

/-!
# Words

What stands in a TOML document without quotes: truth values, integers, fractions, dates and times.
Values have no infinite numbers and no dates: what is written as infinite or as no number is null,
and a date is an object with one field for its text.
-/

namespace Telepathy.Toml

/-! ## Numbers -/

/-- The digits of a number, between any two of which one underscore may stand. -/
def digits? (isDigit : Char → Bool) : List Char → Option (List Char)
  | [] => none
  | [c] => if isDigit c then some [c] else none
  | c :: '_' :: rest => if isDigit c then (digits? isDigit rest).map (c :: ·) else none
  | c :: rest => if isDigit c then (digits? isDigit rest).map (c :: ·) else none

/-- The decimal digits of an integer, which has no zero in front. -/
def wholeDigits? (cs : List Char) : Option (List Char) := do
  let digits ← digits? Char.isDigit cs
  if digits.head? = some '0' && digits.length ≠ 1 then none else some digits

/-- Whether a number has a minus sign, and the characters after its sign. -/
def splitSign : List Char → Bool × List Char
  | '-' :: cs => (true, cs)
  | '+' :: cs => (false, cs)
  | cs => (false, cs)

/-- The value of an integer, which has to fit 64 bits. -/
def ofInt? (n : Int) : Option Value :=
  if -Int.pow 2 63 ≤ n ∧ n < Int.pow 2 63 then some (.number (.ofInt n)) else none

/-- The value of an integer in another base than ten; it has no sign. -/
def ofBase? (base : Nat) (cs : List Char) : Option Value := do
  ofInt? (← Text.inBase? base (← digits? (fun c => (Text.hexDigit? c).isSome) cs))

/-- The value of an integer. -/
def ofInteger? : List Char → Option Value
  | '0' :: 'x' :: cs => ofBase? 16 cs
  | '0' :: 'o' :: cs => ofBase? 8 cs
  | '0' :: 'b' :: cs => ofBase? 2 cs
  | cs => do
    let (negative, cs) := splitSign cs
    let n : Int := Text.decimal (← wholeDigits? cs)
    ofInt? (if negative then -n else n)

/-- Whether a character can stand in a row of decimal digits. -/
def isDigitOrGap (c : Char) : Bool := c.isDigit || c = '_'

/-- The exponent of a fraction, with its letter. -/
def exponent? : List Char → Option Int
  | letter :: cs => do
    if letter ≠ 'e' ∧ letter ≠ 'E' then none
    let (negative, cs) := splitSign cs
    let n : Int := Text.decimal (← digits? Char.isDigit cs)
    return if negative then -n else n
  | [] => none

/-- The decimal places of a fraction and its exponent, at least one of which is given. -/
def tail? : List Char → Option (List Char × Int)
  | '.' :: cs => do
    let places ← digits? Char.isDigit (cs.takeWhile isDigitOrGap)
    let cs := cs.dropWhile isDigitOrGap
    if cs.isEmpty then return (places, 0) else return (places, ← exponent? cs)
  | cs => (exponent? cs).map ([], ·)

/-- The value of a fraction, which may not be out of range. -/
def ofFraction? (cs : List Char) : Option Value := do
  let (negative, cs) := splitSign cs
  let whole ← wholeDigits? (cs.takeWhile isDigitOrGap)
  let (places, power) ← tail? (cs.dropWhile isDigitOrGap)
  let v := Value.ofDecimal negative whole places power
  if v = .null then none else some v

/-! ## All words -/

/-- The field of a date. -/
def dateField : String := "date"

/-- The value of a word. -/
def ofWord? (cs : List Char) : Option Value :=
  if cs = "true".toList then some (.bool true)
  else if cs = "false".toList then some (.bool false)
  else if (splitSign cs).2 = "inf".toList ∨ (splitSign cs).2 = "nan".toList then some .null
  else if isDateTime cs then some (.object [(dateField, .text (.ofList cs))])
  else (ofInteger? cs).or (ofFraction? cs)

/-- Whether a character can stand in a word. -/
def isWordChar (c : Char) : Bool := c.isAlphanum || ['+', '-', '.', ':', '_'].contains c

/-- Takes a word; a space between a date and a time belongs to it. -/
def takeWord (cs : List Char) : List Char × List Char :=
  let word := cs.takeWhile isWordChar
  match cs.dropWhile isWordChar with
  | ' ' :: c :: rest =>
    if isDate word && c.isDigit then
      (word ++ ' ' :: (c :: rest).takeWhile isWordChar, (c :: rest).dropWhile isWordChar)
    else (word, ' ' :: c :: rest)
  | rest => (word, rest)

end Telepathy.Toml
