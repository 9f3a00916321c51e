import Telepathy.Bus.Encoding
import Telepathy.Handle.Tables

set_option autoImplicit false

/-!
# Handle tables as values

The written form of handle tables, row by row with the references held, and of their failures.
-/

namespace Telepathy

/-- The name of a kind of failure. -/
def HandleError.label : HandleError → String
  | invalidIdentifier _ _ _ => "InvalidIdentifier"
  | invalidHandle _ _ => "InvalidHandle"
  | lookupRequired _ _ => "LookupRequired"
  | unsupportedEntity _ => "UnsupportedEntity"

/-- The written form of a failure. -/
def HandleError.value (e : HandleError) : Value :=
  .ofFields [("error", .text e.label), ("message", .text e.message)]

/-- The row of a handle in use. -/
def HandleEntry.value (e : HandleEntry) (h : Handle) : Value :=
  .array [.ofHandle h, .text e.id, .nat e.references]

/-- A table with the rows of its handles below `limit`. -/
def HandleTable.value (t : HandleTable) (limit : Nat) : Value :=
  .ofFields
    [("live", .nat t.liveReferences),
      ("rows", .array ((t.entries.toList.filter fun e => e.1.number < limit).map fun e =>
        e.2.value e.1))]

namespace HandleTables

/-- One field for each table, by the name of its entity type. -/
def fields (ts : HandleTables) (f : HandleTable → Value) : List (String × Value) :=
  ts.entities.filterMap fun e => (ts.get? e).map fun t => (e.name, f t)

/-- All tables with the rows of their handles below `limit`. -/
def value (ts : HandleTables) (limit : Nat) : Value := .ofFields (ts.fields (·.value limit))

/-- How many references are held in each table. -/
def liveValue (ts : HandleTables) : Value := .ofFields (ts.fields fun t => .nat t.liveReferences)

end HandleTables

end Telepathy
