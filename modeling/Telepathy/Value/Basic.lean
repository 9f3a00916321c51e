import Telepathy.Text.Digits
import Telepathy.Value.Binary64

set_option autoImplicit false

/-!
# Dynamic values

Channel properties carry values of any shape. A `Value` is such a value as its sender wrote it: in
particular a number keeps whether it was written as an integer, because only an integer can be a
handle or an entity type. A fraction keeps the sign of a zero, which a comparison of numbers ignores
(`Value.unsignZeros`).
-/

namespace Telepathy

/-- A number. The integer `1` and the fraction `1.0` are different values. -/
inductive Number
  /-- A non-negative integer. -/
  | natural (n : Nat)
  /-- The negative integer `-(n + 1)`. -/
  | negative (n : Nat)
  /-- A number written with a decimal point or an exponent, or too large for an integer. -/
  | fraction (x : Binary64)
deriving DecidableEq, Repr

/-- The number of an integer. -/
def Number.ofInt : Int → Number
  | .ofNat n => natural n
  | .negSucc n => negative n

/-- A property value. The fields of an object are kept by ascending name. -/
inductive Value
  | null
  | bool (b : Bool)
  | number (n : Number)
  | text (s : String)
  | array (items : List Value)
  | object (fields : List (String × Value))
deriving Inhabited

namespace Value

/-! ## Equality -/

mutual

/-- Equality of values, by recursion on their shape. -/
def decEqValue : (a b : Value) → Decidable (a = b)
  | .null, .null => isTrue rfl
  | .bool a, .bool b => decidable_of_iff (a = b) (by simp)
  | .number a, .number b => decidable_of_iff (a = b) (by simp)
  | .text a, .text b => decidable_of_iff (a = b) (by simp)
  | .array a, .array b =>
    match decEqItems a b with
    | isTrue h => isTrue (h ▸ rfl)
    | isFalse h => isFalse (by simpa using h)
  | .object a, .object b =>
    match decEqFields a b with
    | isTrue h => isTrue (h ▸ rfl)
    | isFalse h => isFalse (by simpa using h)
  | .null, .bool _ | .null, .number _ | .null, .text _ | .null, .array _ | .null, .object _
  | .bool _, .null | .bool _, .number _ | .bool _, .text _ | .bool _, .array _ | .bool _, .object _
  | .number _, .null | .number _, .bool _ | .number _, .text _ | .number _, .array _
  | .number _, .object _
  | .text _, .null | .text _, .bool _ | .text _, .number _ | .text _, .array _ | .text _, .object _
  | .array _, .null | .array _, .bool _ | .array _, .number _ | .array _, .text _
  | .array _, .object _
  | .object _, .null | .object _, .bool _ | .object _, .number _ | .object _, .text _
  | .object _, .array _ => isFalse nofun

/-- Equality of lists of values. -/
def decEqItems : (a b : List Value) → Decidable (a = b)
  | [], [] => isTrue rfl
  | [], _ :: _ | _ :: _, [] => isFalse nofun
  | a :: as, b :: bs =>
    match decEqValue a b, decEqItems as bs with
    | isTrue h, isTrue h' => isTrue (h ▸ h' ▸ rfl)
    | isFalse h, _ => isFalse fun e => h (List.cons.inj e).1
    | _, isFalse h => isFalse fun e => h (List.cons.inj e).2

/-- Equality of field lists. -/
def decEqFields : (a b : List (String × Value)) → Decidable (a = b)
  | [], [] => isTrue rfl
  | [], _ :: _ | _ :: _, [] => isFalse nofun
  | (k, a) :: as, (l, b) :: bs =>
    match instDecidableEqString k l, decEqValue a b, decEqFields as bs with
    | isTrue h, isTrue h', isTrue h'' => isTrue (h ▸ h' ▸ h'' ▸ rfl)
    | isFalse h, _, _ => isFalse fun e => h (Prod.mk.inj (List.cons.inj e).1).1
    | _, isFalse h, _ => isFalse fun e => h (Prod.mk.inj (List.cons.inj e).1).2
    | _, _, isFalse h => isFalse fun e => h (List.cons.inj e).2

end

instance : DecidableEq Value := decEqValue

mutual

/-- The value with every zero fraction in it positive. -/
def unsignZeros : Value → Value
  | .number (.fraction x) => .number (.fraction x.unsignZero)
  | .array items => .array (unsignItems items)
  | .object fields => .object (unsignFields fields)
  | v => v

/-- The items with every zero fraction in them positive. -/
def unsignItems : List Value → List Value
  | [] => []
  | v :: items => unsignZeros v :: unsignItems items

/-- The fields with every zero fraction in them positive. -/
def unsignFields : List (String × Value) → List (String × Value)
  | [] => []
  | (name, v) :: fields => (name, unsignZeros v) :: unsignFields fields

end

/-! ## Reading -/

/-- The number of values of a 32-bit word. -/
def wordLimit : Nat := Nat.pow 2 32

/-- The text of a text value. -/
def text? : Value → Option String
  | .text s => some s
  | _ => none

/-- The integer of a value that is an integer from 0 to 2^32 - 1. -/
def word? : Value → Option Nat
  | .number (.natural n) => if n < wordLimit then some n else none
  | _ => none

/-- The value of a non-negative integer. -/
def nat (n : Nat) : Value := .number (.natural n)

/-- The number of a value that is a non-negative integer. -/
def nat? : Value → Option Nat
  | .number (.natural n) => some n
  | _ => none

/-- The value of a decimal fraction with given digits before and after the point, scaled by a power
of ten: the nearest number; null if it is out of range. -/
def ofDecimal (negative : Bool) (whole places : List Char) (power : Int) : Value :=
  match Binary64.nearestDecimal? negative (Text.decimal (whole ++ places))
    (power - places.length) with
  | some x => .number (.fraction x)
  | none => .null

theorem word?_eq_some_iff {v : Value} {n : Nat} :
    v.word? = some n ↔ v = nat n ∧ n < wordLimit := by
  constructor
  · intro h
    unfold word? at h
    split at h
    · split at h
      · cases h
        exact ⟨rfl, ‹_›⟩
      · cases h
    · cases h
  · rintro ⟨rfl, h⟩
    simp [nat, word?, h]

theorem text?_eq_some_iff {v : Value} {s : String} : v.text? = some s ↔ v = .text s := by
  cases v <;> simp [text?]

end Value

end Telepathy
