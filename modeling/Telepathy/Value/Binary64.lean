set_option autoImplicit false

/-!
# Binary fractions

A fraction is kept as a finite number of the IEEE binary64 format. Every such number is a multiple
of the least positive one, `2 ^ -1074`, so a `Binary64` is a sign and a count of these units. Counts
have at most 53 significant bits: what lies between two of them is rounded to the nearer one, and
from the middle to the one whose last bit is zero.
-/

namespace Telepathy

/-- A finite number of the binary64 format. -/
structure Binary64 where
  /-- Whether the number has a minus sign; zero may have one, too. -/
  negative : Bool
  /-- The magnitude in units of `2 ^ -1074`. -/
  units : Nat
deriving DecidableEq, Repr

namespace Binary64

/-- The units of the number one. -/
def one : Nat := Nat.pow 2 1074

/-- The least magnitude that is out of range. -/
def limit : Nat := Nat.pow 2 1024 * one

/-! ## Rounding -/

/-- The integer nearest to a quotient; of two that are equally near, the even one. -/
def nearest (num den : Nat) : Nat :=
  let q := num / den
  let r := num % den
  if 2 * r < den ∨ 2 * r = den ∧ q % 2 = 0 then q else q + 1

/-- The magnitude nearest to a quotient, which is cut to 53 significant bits. -/
def round (num den : Nat) : Nat :=
  let spare := (num * one / den).log2 - 52
  nearest (num * one) (den * Nat.pow 2 spare) * Nat.pow 2 spare

/-- The nearest integer is at most half a unit away. -/
theorem nearest_near {num den : Nat} (h : 0 < den) :
    2 * (nearest num den * den) ≤ 2 * num + den ∧ 2 * num ≤ 2 * (nearest num den * den) + den := by
  have hsum : num / den * den + num % den = num := Nat.div_add_mod' num den
  have hlt : num % den < den := Nat.mod_lt _ h
  have hnext : (num / den + 1) * den = num / den * den + den := Nat.succ_mul _ _
  unfold nearest
  dsimp only
  split <;> omega

/-- A quotient without remainder is its own nearest integer. -/
theorem nearest_mul {n den : Nat} (h : 0 < den) : nearest (n * den) den = n := by
  simp [nearest, Nat.mul_div_cancel n h, h]

/-! ## Decimal fractions -/

/-- The magnitude of a power of ten. -/
def power (k : Nat) : Nat := round (Nat.pow 10 k) 1

/-- A magnitude times a power of ten; none if the product is out of range. -/
def scaleUp? (units k : Nat) : Option Nat :=
  if units = 0 then some 0
  -- The greatest power of ten in range.
  else if 308 < k then none
  else
    let product := round (units * power k) (one * one)
    if product < limit then some product else none

/-- A magnitude divided by a power of ten. A power that is out of range itself is taken in steps. -/
def scaleDown (units k : Nat) : Nat :=
  if units = 0 then 0
  else if k ≤ 308 then round units (power k)
  else scaleDown (round units (power 308)) (k - 308)
termination_by k

/-- The number `± digits * 10 ^ exponent`, none if it is out of range. The digits are rounded before
they are scaled, so a number with very many digits may be one unit off the nearest one. -/
def ofDecimal? (negative : Bool) (digits : Nat) : (exponent : Int) → Option Binary64
  | .ofNat k => (scaleUp? (round digits 1) k).map (⟨negative, ·⟩)
  | .negSucc k => some ⟨negative, scaleDown (round digits 1) (k + 1)⟩

/-- The number nearest to `± digits * 10 ^ exponent`, none if it is out of range. -/
def nearestDecimal? (negative : Bool) (digits : Nat) (exponent : Int) : Option Binary64 :=
  let units? : Option Nat := match exponent with
    | .ofNat k =>
      if digits = 0 then some 0
      else if 308 < k then none
      else some (round (digits * Nat.pow 10 k) 1)
    -- A larger power makes no difference, since what is below `10 ^ -324` rounds to zero.
    | .negSucc k => some (round digits (Nat.pow 10 (min (k + 1) (digits.log2 + 325))))
  match units? with
  | some units => if units < limit then some ⟨negative, units⟩ else none
  | none => none

/-! ## Zeros -/

/-- The number, with a plus sign if it is zero. -/
def unsignZero (x : Binary64) : Binary64 := if x.units = 0 then ⟨false, 0⟩ else x

end Binary64

end Telepathy
