import Telepathy.Sorted.Map
import Telepathy.Value.Basic

set_option autoImplicit false

/-!
# Objects

Making objects of fields, looking fields up, and laying one object over another: what the upper one
says counts, field by field, down to whatever is not an object.
-/

namespace Telepathy.Value

/-- An object with the given fields; of two fields with one name the later counts. -/
def ofFields (fields : List (String × Value)) : Value :=
  .object (SortedMap.ofList fields).toList

/-- The value of a field. -/
def field? (v : Value) (name : String) : Option Value :=
  match v with
  | .object fields => SortedMap.lookup name fields
  | _ => none

@[simp] theorem field?_ofFields (fields : List (String × Value)) (name : String) :
    (ofFields fields).field? name = (SortedMap.ofList fields).get? name := rfl

/-- The value that has another one at the end of a path of fields. -/
def atPath (path : List String) (v : Value) : Value :=
  path.foldr (fun name v => .object [(name, v)]) v

mutual

/-- The value `below` with the value `top` laid over it. Only objects let through what is below. -/
def coveredBy : (below top : Value) → Value
  | .object below, .object top => .object (fieldsCoveredBy below top)
  | _, top => top

/-- The fields `below` with the fields `top` laid over them. -/
def fieldsCoveredBy : (below top : List (String × Value)) → List (String × Value)
  | below, [] => below
  | below, (name, v) :: top =>
    let v := match SortedMap.lookup name below with
      | some w => coveredBy w v
      | none => v
    fieldsCoveredBy (SortedMap.put name v below) top

end

/-- An object without fields hides nothing. -/
@[simp] theorem coveredBy_empty (fields : List (String × Value)) :
    (object fields).coveredBy (.object []) = .object fields := by
  simp [coveredBy, fieldsCoveredBy]

end Telepathy.Value
