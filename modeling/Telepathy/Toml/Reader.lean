import Telepathy.Toml.Table
import Telepathy.Toml.Text
import Telepathy.Toml.Word

set_option autoImplicit false

/-!
# Reading documents

The value of a TOML document (version 1.0) is an object. Scanners take characters off the front of a
list, as those for JSON do; loops over parts are bounded by the length of what is left.
-/

namespace Telepathy.Toml

/-- How many brackets around a value, and how many keys in a path, are too many. -/
def depthLimit : Nat := 80

/-! ## Keys -/

/-- Whether a character can stand in a key without quotes. -/
def isKeyChar (c : Char) : Bool := c.isAlphanum || c = '_' || c = '-'

/-- Reads one key. -/
def scanKey : List Char → Option (String × List Char)
  | '"' :: rest => (Text.scanQuoted rest).map fun (s, rest) => (.ofList s, rest)
  | '\'' :: rest => (scanLiteral rest).map fun (s, rest) => (.ofList s, rest)
  | cs =>
    match cs.takeWhile isKeyChar with
    | [] => none
    | key => some (.ofList key, cs.dropWhile isKeyChar)

/-- Reads keys with points between them; the number bounds how many there are. -/
def scanKeys : Nat → List Char → Option (List String × List Char)
  | 0, _ => none
  | bound + 1, cs => do
    let (key, rest) ← scanKey (skip cs)
    match skip rest with
    | '.' :: rest =>
      let (keys, rest) ← scanKeys bound rest
      return (key :: keys, rest)
    | rest => return ([key], rest)

/-- Reads a path of keys. -/
def scanPath (cs : List Char) : Option (List String × List Char) := scanKeys (depthLimit - 1) cs

/-! ## Values -/

/-- Reads a path of keys, an equals sign and a value. -/
def scanEntry (value : List Char → Option (Value × List Char)) (cs : List Char) :
    Option (List String × Value × List Char) := do
  let (path, rest) ← scanPath cs
  match rest with
  | '=' :: rest =>
    let (v, rest) ← value (skip rest)
    return (path, v, rest)
  | _ => none

/-- Reads the values of an array up to its end; a comma may follow the last one. -/
def scanItems (value : List Char → Option (Value × List Char)) :
    Nat → List Char → Option (List Value × List Char)
  | 0, _ => none
  | bound + 1, cs =>
    match skipLines false cs with
    | ']' :: rest => some ([], rest)
    | cs => do
      let (v, rest) ← value cs
      match skipLines false rest with
      | ',' :: rest =>
        let (vs, rest) ← scanItems value bound rest
        return (v :: vs, rest)
      | ']' :: rest => return ([v], rest)
      | _ => none

/-- Reads the entries of a table within a line up to its end, and adds them to its items. -/
def scanFields (value : List Char → Option (Value × List Char)) :
    Nat → Items → List Char → Option (Items × List Char)
  | 0, _, _ => none
  | bound + 1, items, cs => do
    let (path, v, rest) ← scanEntry value cs
    let items ← items.setPath? path v
    match skip rest with
    | ',' :: rest => scanFields value bound items rest
    | '}' :: rest => return (items, rest)
    | _ => none

/-- Reads a value; the number bounds the depth of its brackets. -/
def scanValue : Nat → List Char → Option (Value × List Char)
  | depth + 1, '[' :: rest =>
    (scanItems (scanValue depth) (rest.length + 1) rest).map fun (vs, rest) => (.array vs, rest)
  | depth + 1, '{' :: rest =>
    match skip rest with
    | '}' :: rest => some (.object [], rest)
    | rest => (scanFields (scanValue depth) (rest.length + 1) [] rest).map fun (items, rest) =>
      (.object (finishItems items), rest)
  | _, cs =>
    match scanText? cs with
    | some (s, rest) => some (.text (.ofList s), rest)
    | none => (ofWord? (takeWord cs).1).map (·, (takeWord cs).2)

/-! ## Documents -/

/-- Reads lines into the items of a document; what belongs to no header has none. -/
def scanLines : Nat → (header : List String) → Items → List Char → Option Items
  | 0, _, _, _ => none
  | bound + 1, header, items, cs =>
    match skipLines false cs with
    | [] => some items
    | '[' :: '[' :: rest => do
      match ← scanPath rest with
      | (header, ']' :: ']' :: rest) =>
        scanLines bound header (← items.appendTable? header) (← endLine? rest)
      | _ => none
    | '[' :: rest => do
      match ← scanPath rest with
      | (header, ']' :: rest) =>
        scanLines bound header (← items.defineTable? header) (← endLine? rest)
      | _ => none
    | cs => do
      let (path, v, rest) ← scanEntry (scanValue (depthLimit - 1)) cs
      scanLines bound header (← items.setBelow? header path v) (← endLine? rest)

/-- The value of a document; none if it is malformed. A mark of the byte order at its start does not
count. -/
def parse? (document : String) : Option Value :=
  let cs := match document.toList with
    | '\ufeff' :: cs => cs
    | cs => cs
  (scanLines (cs.length + 1) [] [] cs).map fun items => .object (finishItems items)

end Telepathy.Toml
