import Telepathy.Value.Basic

set_option autoImplicit false

/-!
# Writing values

The JSON text of a value has no white space. A fraction is always written with an exponent, so that
it is read as a fraction again, and with all its digits.
-/

namespace Telepathy.Json

/-- A hexadecimal digit. -/
def hexDigit (n : Nat) : Char := (n % 16).digitChar

/-- A character inside a text. -/
def writeChar (c : Char) : List Char :=
  if c = '"' then ['\\', '"']
  else if c = '\\' then ['\\', '\\']
  else if c.toNat < 32 then
    ['\\', 'u', '0', '0', hexDigit (c.toNat / 16), hexDigit c.toNat]
  else [c]

/-- A text between quotes. -/
def writeText (s : String) : String := "\"" ++ .ofList (s.toList.flatMap writeChar) ++ "\""

/-- A fraction. A multiple of `2 ^ -1074` is one of `10 ^ -1074`, too; zeros at the end of the
digits are left out. -/
def writeFraction (x : Binary64) : String :=
  let digits := (toString (x.units * Nat.pow 5 1074)).toList
  let zeros := (digits.reverse.takeWhile (· = '0')).length
  let exponent : Int := zeros - 1074
  (if x.negative then "-" else "") ++
    if x.units = 0 then "0e0"
    else .ofList (digits.take (digits.length - zeros)) ++ "e" ++ toString exponent

/-- A number. -/
def writeNumber : Number → String
  | .natural n => toString n
  | .negative n => "-" ++ toString (n + 1)
  | .fraction x => writeFraction x

mutual

/-- The text of a value. -/
def render : Value → String
  | .null => "null"
  | .bool true => "true"
  | .bool false => "false"
  | .number n => writeNumber n
  | .text s => writeText s
  | .array items => "[" ++ ",".intercalate (renderItems items) ++ "]"
  | .object fields => "\x7b" ++ ",".intercalate (renderFields fields) ++ "\x7d"

/-- The texts of the items of an array. -/
def renderItems : List Value → List String
  | [] => []
  | v :: items => render v :: renderItems items

/-- The texts of the fields of an object. -/
def renderFields : List (String × Value) → List String
  | [] => []
  | (name, v) :: fields => (writeText name ++ ":" ++ render v) :: renderFields fields

end

end Telepathy.Json
