import Telepathy.Text.Digits

set_option autoImplicit false

/-!
# Quoted texts

Texts between double quotes, as configurations write them: a backslash introduces an escape, and
control characters other than the tab have to be escaped.
-/

namespace Telepathy.Text

/-! ## Escapes -/

/-- The character of an escape by one letter. -/
def escaped? : Char → Option Char
  | '"' => some '"'
  | '\\' => some '\\'
  | 'b' => some '\x08'
  | 'f' => some '\x0c'
  | 'n' => some '\n'
  | 'r' => some '\r'
  | 't' => some '\t'
  | _ => none

/-- The text that a text with escapes stands for. -/
def unescape? : List Char → Option (List Char)
  | '\\' :: 'u' :: a :: b :: c :: d :: rest => do
    let char ← (← hexadecimal? [a, b, c, d]) |> character?
    return char :: (← unescape? rest)
  | '\\' :: 'U' :: a :: b :: c :: d :: e :: f :: g :: h :: rest => do
    let char ← (← hexadecimal? [a, b, c, d, e, f, g, h]) |> character?
    return char :: (← unescape? rest)
  | '\\' :: letter :: rest => do return (← escaped? letter) :: (← unescape? rest)
  | ['\\'] => none
  | char :: rest => (unescape? rest).map (char :: ·)
  | [] => some []

/-! ## Between quotes -/

/-- Whether a character may stand for itself between quotes or in a comment. -/
def isPrintable (c : Char) : Bool := c = '\t' || (32 ≤ c.toNat && c.toNat ≠ 127)

/-- What stands before the first quote that has no backslash of its own in front, and what follows
this quote. -/
def splitQuoted : List Char → Option (List Char × List Char)
  | '"' :: rest => some ([], rest)
  | '\\' :: c :: rest => (splitQuoted rest).map fun (s, rest) => ('\\' :: c :: s, rest)
  | c :: rest => (splitQuoted rest).map fun (s, rest) => (c :: s, rest)
  | [] => none

/-- Reads a text after its opening quote; gives the text and what follows its closing quote. -/
def scanQuoted (cs : List Char) : Option (List Char × List Char) := do
  let (s, rest) ← splitQuoted cs
  if s.all isPrintable then return (← unescape? s, rest) else none

end Telepathy.Text
