import Telepathy.Value.Object

set_option autoImplicit false

/-!
# Tables under construction

While a TOML document is read, a table remembers how it came about, because this decides what may
still be added to it: nothing is defined twice, and keys with points extend only tables that are not
defined otherwise. An array of tables is extended at its last table.
-/

namespace Telepathy.Toml

/-- How a table came about. -/
inductive Origin
  /-- It has a header of its own. -/
  | header
  /-- The header of a table below it names it on the way. -/
  | onTheWay
  /-- A key with points in it names it. -/
  | dotted
deriving DecidableEq, Repr

/-- What a key stands for. -/
inductive Item
  | value (v : Value)
  | table (origin : Origin) (items : List (String × Item))
  /-- An array of tables, the last one of which is under construction. -/
  | tables (earlier : List Value) (last : List (String × Item))

/-- The items of a table, by ascending key. -/
abbrev Items := List (String × Item)

mutual

/-- The value of a finished item. -/
def Item.finish : Item → Value
  | .value v => v
  | .table _ items => .object (finishItems items)
  | .tables earlier last => .array (earlier ++ [.object (finishItems last)])

/-- The fields of a finished table. -/
def finishItems : List (String × Item) → List (String × Value)
  | [] => []
  | (key, item) :: items => (key, item.finish) :: finishItems items

end

namespace Items

/-- Changes the table at the end of a path, which starts at a table of a given origin. Tables that
are missing on the way are made; a path of points does not lead into a table with a header. -/
def change? (points : Bool) (change : Origin → Items → Option Items) :
    (path : List String) → Origin → Items → Option Items
  | [], origin, items => change origin items
  | key :: path, _, items => do
    let item ← match SortedMap.lookup key items with
      | none =>
        let origin := if points then .dotted else .onTheWay
        (change? points change path origin []).map (Item.table origin)
      | some (.value _) => none
      | some (.table origin inner) =>
        if points ∧ origin = .header then none
        else (change? points change path origin inner).map (Item.table origin)
      | some (.tables earlier last) =>
        (change? points change path .header last).map (Item.tables earlier)
    return SortedMap.put key item items

/-- Sets a key, which may not be set yet. -/
def set? (key : String) (v : Value) (items : Items) : Option Items :=
  match SortedMap.lookup key items with
  | none => some (SortedMap.put key (.value v) items)
  | some _ => none

/-- Sets a path of keys with points between them. The table that gets the last one of several keys
has to be one that keys with points have made. -/
def setPath? (path : List String) (v : Value) (items : Items) : Option Items :=
  let way := path.dropLast
  change? true (fun origin items =>
    if way ≠ [] ∧ origin ≠ .dotted then none
    else path.getLast?.bind fun key => set? key v items) way .header items

/-- Sets a path in the table with a given header. -/
def setBelow? (header path : List String) (v : Value) (items : Items) : Option Items :=
  change? false (fun _ items => setPath? path v items) header .header items

/-- Defines the table with a header. It may have been named on the way before. -/
def defineTable? (header : List String) (items : Items) : Option Items :=
  change? false (fun _ items => do
    let key ← header.getLast?
    let inner ← match SortedMap.lookup key items with
      | none => some []
      | some (.table .onTheWay inner) => some inner
      | some _ => none
    return SortedMap.put key (.table .header inner) items) header.dropLast .header items

/-- Appends a table to the array of tables with a header. -/
def appendTable? (header : List String) (items : Items) : Option Items :=
  change? false (fun _ items => do
    let key ← header.getLast?
    let earlier ← match SortedMap.lookup key items with
      | none => some []
      | some (.tables earlier last) => some (earlier ++ [.object (finishItems last)])
      | some _ => none
    return SortedMap.put key (.tables earlier []) items) header.dropLast .header items

end Items

end Telepathy.Toml
