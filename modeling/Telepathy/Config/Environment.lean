import Telepathy.Config.Word
import Telepathy.Fault
import Telepathy.Text.Blank
import Telepathy.Text.Bytes
import Telepathy.Text.Quoted
import Telepathy.Value.Object

set_option autoImplicit false

/-!
# Settings in the environment

The name of a variable is a path: in any case, with keys separated by two underscores or by a
point. Its value is a word, a quoted text, a list in square brackets or a table in curly brackets. A
word is a text unless it reads as a truth value or as a number; several words separated by commas
are a list. What is none of these, because a bracket or a quote stays open, say, is a text as it
stands. It is a fault if the cut of a quoted text ends inside a character, whatever the variable.
-/

namespace Telepathy.Config.Environment

/-! ## Names -/

/-- The keys of a path, some of which may be empty. -/
def keys : List Char → List (List Char)
  | [] => [[]]
  | '_' :: '_' :: rest | '.' :: rest => [] :: keys rest
  | c :: rest =>
    match keys rest with
    | [] => [[c]]
    | key :: more => (c :: key) :: more

/-- The path of a variable; a name with an empty key in it has none. -/
def variablePath? (name : String) : Option (List String) :=
  let path := keys (Text.lower (Text.trim name)).toList
  if [] ∈ path then none else some (path.map .ofList)

/-! ## Words -/

/-- Whether a character is blank between the parts of a value. -/
def isSpace (c : Char) : Bool := c = ' ' || c = '\t' || c = '\n' || c = '\x0c' || c = '\r'

/-- Whether a character cannot stand in a word. -/
def isSeparator (c : Char) : Bool := c = ',' || c = '[' || c = ']' || c = '{' || c = '}'

/-- Whether a character can stand in a key without quotes. -/
def isKeyChar (c : Char) : Bool := c.isAlphanum || c = '_' || c = '-'

/-- The exponent of a fraction, with its letter. -/
def exponent? : List Char → Option Int
  | letter :: cs =>
    let digits := match cs with
      | '-' :: digits | '+' :: digits => digits
      | digits => digits
    if (letter = 'e' ∨ letter = 'E') ∧ Text.isDecimal digits then some (Text.signed cs) else none
  | [] => none

/-- The value of a decimal fraction with a point in it and digits on one side of it at least. -/
def fraction? (cs : List Char) : Option Value :=
  let (negative, cs) := match cs with
    | '-' :: cs => (true, cs)
    | '+' :: cs => (false, cs)
    | cs => (false, cs)
  let whole := cs.takeWhile Char.isDigit
  match cs.dropWhile Char.isDigit with
  | '.' :: rest =>
    let places := rest.takeWhile Char.isDigit
    let tail := rest.dropWhile Char.isDigit
    let power? := if tail.isEmpty then some 0 else exponent? tail
    if (whole ++ places).isEmpty then none else power?.map (Value.ofDecimal negative whole places)
  | _ => none

/-- The value of a word. -/
def ofWord (s : String) : Value :=
  if Text.lower s = "true" then .bool true
  else if Text.lower s = "false" then .bool false
  else match fraction? s.toList, integer? s.toList with
    | some v, _ => v
    | none, some n => .number (.ofInt n)
    | none, none => .text s

/-! ## Values -/

/-- Reads the beginning of a text: gives what stands there and what follows, or nothing. A fault
ends the reading of all texts. -/
abbrev Scan (α : Type) := List Char → OptionT (Except Fault) (α × List Char)

/-- Reads a text after its opening quote. Of a text with escapes, what stands before the first one
is cut to as many bytes as it has characters. -/
def scanQuoted : Scan (List Char) := fun cs => do
  let (s, rest) ← (Text.splitQuoted cs).getM
  let plain := s.takeWhile (· ≠ '\\')
  let escaped := s.drop plain.length
  if !plain.all Text.isPrintable then failure
  if escaped.isEmpty then return (plain, rest)
  let kept := Text.takeBytes plain.length plain
  if (String.ofList kept).utf8ByteSize ≠ plain.length then
    throwThe Fault (.splitCharacter (.ofList s) plain.length)
  if !escaped.all Text.isPrintable then failure
  return (kept ++ (← (Text.unescape? escaped).getM), rest)

/-- Reads parts separated by commas up to the closing bracket; a comma may follow the last part. The
number bounds the count of parts. -/
def scanParts {α : Type} (part : Scan α) (close : Char) : Nat → Scan (List α)
  | 0, _ => failure
  | bound + 1, cs =>
    if cs.head? = some close then return ([], cs.tail)
    else do
      let (a, rest) ← part cs
      match rest with
      | ',' :: rest =>
        let (more, rest) ← scanParts part close bound rest
        return (a :: more, rest)
      | c :: rest => if c = close then return ([a], rest) else failure
      | [] => failure

/-- Reads the key of a part of a table and its equals sign. -/
def scanKey : Scan String := fun cs => do
  let (key, rest) ← match cs.dropWhile isSpace with
    | '"' :: rest => scanQuoted rest
    | cs =>
      match cs.takeWhile isKeyChar with
      | [] => failure
      | key => pure (key, cs.dropWhile isKeyChar)
  match rest.dropWhile isSpace with
  | '=' :: rest => return (.ofList key, rest)
  | _ => failure

/-- Reads a value with the blanks around it; the number bounds the depth of its brackets. A truth
value in lower case ends where its letters do, so nothing but blanks may follow it. -/
def scanValue : Nat → Scan Value
  | 0, _ => failure
  | depth + 1, cs => do
    let field : Scan (String × Value) := fun cs => do
      let (key, rest) ← scanKey cs
      let (v, rest) ← scanValue depth rest
      return ((key, v), rest)
    let (v, rest) ← match cs.dropWhile isSpace with
      | 't' :: 'r' :: 'u' :: 'e' :: rest => pure (.bool true, rest)
      | 'f' :: 'a' :: 'l' :: 's' :: 'e' :: rest => pure (.bool false, rest)
      | '[' :: rest => do
        let (vs, rest) ← scanParts (scanValue depth) ']' (rest.length + 1) rest
        pure (.array vs, rest)
      | '{' :: rest => do
        let (fields, rest) ← scanParts field '}' (rest.length + 1) rest
        pure (.ofFields fields, rest)
      | '"' :: rest => do
        let (s, rest) ← scanQuoted rest
        pure (.text (.ofList s), rest)
      | '\'' :: c :: '\'' :: rest => pure (.text c.toString, rest)
      | '\'' :: _ => failure
      | cs =>
        pure (ofWord (Text.trim (.ofList (cs.takeWhile (!isSeparator ·)))),
          cs.dropWhile (!isSeparator ·))
    return (v, rest.dropWhile isSpace)

/-- The value of a variable's text. -/
def ofText (text : String) : Except Fault Value :=
  let text := Text.trim text
  let opening := ['[', '{', '"', '\'']
  if ',' ∈ text.toList ∧ text.toList.head?.all (· ∉ opening) then
    return .array ((text.splitOn ",").map fun item => .text (Text.trim item))
  else do
    match ← (scanValue (text.length + 1) text.toList).run with
    | some (v, []) => return v
    | _ => return .text text

/-- The field that a variable sets, at the top of its path. -/
def field? (name text : String) : Except Fault (Option (String × Value)) :=
  match variablePath? name with
  | some (key :: path) => return some (key, .atPath path (← ofText text))
  | _ => return none

/-- What the environment says. Variables are taken by ascending name; of those with paths that begin
alike the last one counts. -/
def layer (environment : SortedMap String String) : Except Fault Value := do
  return .ofFields (← environment.toList.filterMapM fun (name, text) => field? name text)

end Telepathy.Config.Environment
