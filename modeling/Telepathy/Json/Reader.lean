import Telepathy.Json.Numeral
import Telepathy.Sorted.Map
import Telepathy.Text.Quoted

set_option autoImplicit false

/-!
# Reading values

Values are exchanged as JSON texts. Of two fields with one name the later counts.

A scanner takes characters off the front of a list and returns what it made of them with the rest.
The reader of values is bounded by the length of the text, since every value takes at least one
character.
-/

namespace Telepathy.Json

/-! ## Texts -/

/-- Skips white space. -/
def skip (cs : List Char) : List Char :=
  cs.dropWhile fun c => c = ' ' || c = '\n' || c = '\t' || c = '\r'

/-- The character of an escape by one letter. -/
def escaped? (c : Char) : Option Char := if c = '/' then some '/' else Text.escaped? c

/-- The character of two units of UTF-16, the first of which opens a pair. -/
def pair? (high low : Nat) : Option Char :=
  if 0xDC00 ≤ low ∧ low < 0xE000 then
    some (.ofNat (0x10000 + (high - 0xD800) * 0x400 + (low - 0xDC00)))
  else none

/-- The rest of a text after its opening quote. -/
def scanText : List Char → Option (List Char × List Char)
  | '"' :: rest => some ([], rest)
  -- Two escapes in a row may be the halves of one character.
  | '\\' :: 'u' :: a :: b :: c :: d :: '\\' :: 'u' :: e :: f :: g :: h :: rest => do
    let n ← Text.hexadecimal? [a, b, c, d]
    let m ← Text.hexadecimal? [e, f, g, h]
    let (s, rest) ← scanText rest
    if 0xD800 ≤ n ∧ n < 0xDC00 then return ((← pair? n m) :: s, rest)
    else return (.ofNat n :: .ofNat m :: s, rest)
  | '\\' :: 'u' :: a :: b :: c :: d :: rest => do
    let n ← Text.hexadecimal? [a, b, c, d]
    let (s, rest) ← scanText rest
    return (.ofNat n :: s, rest)
  | '\\' :: c :: rest => do
    let c ← escaped? c
    let (s, rest) ← scanText rest
    return (c :: s, rest)
  | c :: rest => do
    let (s, rest) ← scanText rest
    return (c :: s, rest)
  | [] => none

/-! ## Values -/

mutual

/-- Reads one value; the number bounds the depth of the recursion. -/
def readValue : Nat → List Char → Option (Value × List Char)
  | 0, _ => none
  | bound + 1, cs =>
    match skip cs with
    | '"' :: rest => (scanText rest).map fun (s, rest) => (.text (.ofList s), rest)
    | '[' :: rest =>
      match skip rest with
      | ']' :: rest => some (.array [], rest)
      | rest => (readItems bound rest).map fun (items, rest) => (.array items, rest)
    | '{' :: rest =>
      match skip rest with
      | '}' :: rest => some (.object [], rest)
      | rest =>
        (readFields bound rest).map fun (fields, rest) =>
          (.object (SortedMap.ofList fields).toList, rest)
    | 't' :: 'r' :: 'u' :: 'e' :: rest => some (.bool true, rest)
    | 'f' :: 'a' :: 'l' :: 's' :: 'e' :: rest => some (.bool false, rest)
    | 'n' :: 'u' :: 'l' :: 'l' :: rest => some (.null, rest)
    | cs =>
      match cs.takeWhile isNumeral with
      | [] => none
      | digits => (numeral? digits).map fun n => (.number n, cs.dropWhile isNumeral)

/-- Reads the items of an array up to its end. -/
def readItems : Nat → List Char → Option (List Value × List Char)
  | 0, _ => none
  | bound + 1, cs => do
    let (v, rest) ← readValue bound cs
    match skip rest with
    | ',' :: rest =>
      let (items, rest) ← readItems bound rest
      return (v :: items, rest)
    | ']' :: rest => return ([v], rest)
    | _ => none

/-- Reads the fields of an object up to its end. -/
def readFields : Nat → List Char → Option (List (String × Value) × List Char)
  | 0, _ => none
  | bound + 1, cs =>
    match skip cs with
    | '"' :: rest => do
      let (name, rest) ← scanText rest
      match skip rest with
      | ':' :: rest =>
        let (v, rest) ← readValue bound rest
        match skip rest with
        | ',' :: rest =>
          let (fields, rest) ← readFields bound rest
          return ((.ofList name, v) :: fields, rest)
        | '}' :: rest => return ([(.ofList name, v)], rest)
        | _ => none
      | _ => none
    | _ => none

end

/-- The value of a text that holds exactly one. -/
def parse? (s : String) : Option Value :=
  match readValue (2 * s.length + 2) s.toList with
  | some (v, rest) => if skip rest = [] then some v else none
  | none => none

end Telepathy.Json
