import Telepathy.Text.Quoted

set_option autoImplicit false

/-!
# Blanks, comments and line ends

What may stand between the parts of a TOML document. A line ends with a line feed, which a carriage
return may precede, and a comment goes from a number sign to the end of its line.
-/

namespace Telepathy.Toml

/-- Whether a character is blank within a line. -/
def isBlank (c : Char) : Bool := c = ' ' || c = '\t'

/-- Skips blanks within a line. -/
def skip (cs : List Char) : List Char := cs.dropWhile isBlank

/-- What follows the end of a line, if there is one here. -/
def afterLineEnd? : List Char → Option (List Char)
  | '\n' :: rest => some rest
  | '\r' :: '\n' :: rest => some rest
  | _ => none

/-- What follows the line, if only blanks and a comment are left on it. -/
def endLine? (cs : List Char) : Option (List Char) :=
  let cs := match skip cs with
    | '#' :: comment => comment.dropWhile Text.isPrintable
    | cs => cs
  if cs.isEmpty then some [] else afterLineEnd? cs

/-- Skips blanks, comments and line ends; `comment` says whether a comment has begun. What cannot be
part of a comment is not skipped, and nothing else begins with it. -/
def skipLines (comment : Bool) : List Char → List Char
  | [] => []
  | '\n' :: rest => skipLines false rest
  | '\r' :: '\n' :: rest => skipLines false rest
  | c :: rest =>
    if comment && Text.isPrintable c || isBlank c then skipLines comment rest
    else if !comment && c = '#' then skipLines true rest
    else c :: rest

end Telepathy.Toml
