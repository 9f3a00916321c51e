import Telepathy.Text.Digits

set_option autoImplicit false

/-!
# Dates and times

A date has the form `1979-05-27`, a time of the day the form `07:32:00`, with any number of decimal
places after the seconds. Both together may be followed by an offset from universal time.
-/

namespace Telepathy.Toml

/-- Whether a year has 366 days. -/
def isLeapYear (year : Nat) : Bool := year % 4 = 0 && (year % 100 ≠ 0 || year % 400 = 0)

/-- The number of days in a month. -/
def daysIn (year month : Nat) : Nat :=
  if month = 2 then if isLeapYear year then 29 else 28
  else if month ∈ [4, 6, 9, 11] then 30
  else 31

/-- Whether characters are a date. -/
def isDate : List Char → Bool
  | [a, b, c, d, '-', e, f, '-', g, h] =>
    let year := Text.decimal [a, b, c, d]
    let month := Text.decimal [e, f]
    let day := Text.decimal [g, h]
    [a, b, c, d, e, f, g, h].all Char.isDigit && 1 ≤ month && month ≤ 12 && 1 ≤ day &&
      day ≤ daysIn year month
  | _ => false

/-- Whether four digits are an hour and a minute. -/
def isMinute (a b c d : Char) : Bool :=
  [a, b, c, d].all Char.isDigit && Text.decimal [a, b] < 24 && Text.decimal [c, d] < 60

/-- Whether characters are a time of the day; a minute may have a leap second. -/
def isTime : List Char → Bool
  | a :: b :: ':' :: c :: d :: ':' :: e :: f :: rest =>
    isMinute a b c d && e.isDigit && f.isDigit && Text.decimal [e, f] ≤ 60 &&
      match rest with
      | [] => true
      | '.' :: places => Text.isDecimal places
      | _ => false
  | _ => false

/-- Whether characters are an offset from universal time. -/
def isOffset : List Char → Bool
  | ['Z'] | ['z'] => true
  | [sign, a, b, ':', c, d] => (sign = '+' || sign = '-') && isMinute a b c d
  | _ => false

/-- Whether a character can stand in a time of the day. -/
def isTimeChar (c : Char) : Bool := c.isDigit || c = ':' || c = '.'

/-- Whether characters are a date, a time of the day, or a date with a time. -/
def isDateTime (cs : List Char) : Bool :=
  isTime cs || isDate (cs.take 10) &&
    match cs.drop 10 with
    | [] => true
    | delimiter :: rest =>
      let offset := rest.dropWhile isTimeChar
      ['T', 't', ' '].contains delimiter && isTime (rest.takeWhile isTimeChar) &&
        (offset.isEmpty || isOffset offset)

end Telepathy.Toml
