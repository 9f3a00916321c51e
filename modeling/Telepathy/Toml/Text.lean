import Telepathy.Toml.Line

set_option autoImplicit false

/-!
# Texts

A text of one line stands between two quotes or two apostrophes, a text of several lines between
three of them on each side. Escapes count between quotes only. In a text of several lines a line end
right after the opening does not count, nor does what follows a backslash at the end of a line up to
the next character that is not blank.
-/

namespace Telepathy.Toml

/-- What stands before the closing marks of a text of several lines, and what follows them. One or
two marks right before the closing ones belong to the text. -/
def splitLong (mark : Char) : List Char → Option (List Char × List Char)
  | [] => none
  | '\\' :: c :: rest =>
    if mark = '"' then (splitLong mark rest).map fun (s, rest) => ('\\' :: c :: s, rest)
    else (splitLong mark (c :: rest)).map fun (s, rest) => ('\\' :: s, rest)
  | c :: rest =>
    if [mark, mark, mark].isPrefixOf (c :: rest) then
      let marks := (rest.drop 2).takeWhile (· = mark)
      some (marks.take 2, (rest.drop 2).drop (marks.take 2).length)
    else (splitLong mark rest).map fun (s, rest) => (c :: s, rest)

/-- The characters with line feeds as their only line ends. -/
def unifyLineEnds : List Char → List Char
  | '\r' :: '\n' :: rest => '\n' :: unifyLineEnds rest
  | c :: rest => c :: unifyLineEnds rest
  | [] => []

/-- Drops the backslashes at the ends of lines, with the blanks and line ends that follow them;
`dropping` says whether such blanks are being dropped. -/
def joinLines (dropping : Bool) : List Char → List Char
  | [] => []
  | '\\' :: c :: rest =>
    if (skip (c :: rest)).head? = some '\n' then joinLines true (c :: rest)
    else '\\' :: c :: joinLines false rest
  | c :: rest =>
    if dropping && (isBlank c || c = '\n') then joinLines true rest
    else c :: joinLines false rest

/-- Reads a text of several lines after its three opening marks. -/
def scanLong (mark : Char) (cs : List Char) : Option (List Char × List Char) := do
  let (s, rest) ← splitLong mark ((afterLineEnd? cs).getD cs)
  let s := unifyLineEnds s
  if s.all fun c => Text.isPrintable c || c = '\n' then
    return (← if mark = '"' then Text.unescape? (joinLines false s) else some s, rest)
  else none

/-- Reads a text after its opening apostrophe; it has no escapes. -/
def scanLiteral (cs : List Char) : Option (List Char × List Char) :=
  let s := cs.takeWhile fun c => Text.isPrintable c && c ≠ '\''
  match cs.drop s.length with
  | '\'' :: rest => some (s, rest)
  | _ => none

/-- Reads a text in any of its forms; none if there is no text here. -/
def scanText? : List Char → Option (List Char × List Char)
  | '"' :: '"' :: '"' :: rest => scanLong '"' rest
  | '"' :: rest => Text.scanQuoted rest
  | '\'' :: '\'' :: '\'' :: rest => scanLong '\'' rest
  | '\'' :: rest => scanLiteral rest
  | _ => none

end Telepathy.Toml
