/-!
Binary floating point numbers of 64 bits, taken apart and put together. `parts` reads a number as
`mantissa * 2 ^ exponent` with a sign, `ofParts` writes one, and `ofRatio` gives the number nearest
to a quotient of naturals, a tie going to the even mantissa. `remainder` and `hypot` are computed
on these readings where plain arithmetic would round or overflow.
-/

set_option autoImplicit false
set_option relaxedAutoImplicit false

namespace Toolpath.Double

inductive Parts where
  | nan
  | infinite (negative : Bool)
  | finite (negative : Bool) (mantissa : Nat) (exponent : Int)
  deriving DecidableEq, Repr

/-- Reads the sign, the biased exponent and the trailing mantissa of the bit pattern. -/
def parts (x : Float) : Parts :=
  let bits := x.toBits.toNat
  let negative := Nat.pow 2 63 ≤ bits
  let field : Nat := bits / Nat.pow 2 52 % Nat.pow 2 11
  let trailing : Nat := bits % Nat.pow 2 52
  if field = 2047 then
    if trailing = 0 then .infinite negative else .nan
  else if field = 0 then .finite negative trailing (-1074)
  else .finite negative (Nat.pow 2 52 + trailing) ((field : Int) - 1075)

/-- The number `mantissa * 2 ^ exponent`, exact for a mantissa of at most 53 bits that is not lost
below the smallest exponent. -/
def ofParts (negative : Bool) (mantissa : Nat) (exponent : Int) : Float :=
  let magnitude := mantissa.toUInt64.toFloat.scaleB exponent
  if negative then -magnitude else magnitude

/-- The quotient rounded to a whole number, a half going to the even neighbour. -/
def roundDiv (num den : Nat) : Nat :=
  let quotient := num / den
  let rest := num % den
  if den < 2 * rest ∨ (2 * rest = den ∧ quotient % 2 = 1) then quotient + 1 else quotient

/-- The exponent of the power of two at or below the quotient. -/
def floorLog2 (num den : Nat) : Int :=
  let estimate : Int := num.log2 - den.log2
  if num * Nat.pow 2 (-estimate).toNat < den * Nat.pow 2 estimate.toNat then estimate - 1
  else estimate

/-- The number nearest to `num / den`. -/
def ofRatio (negative : Bool) (num den : Nat) : Float :=
  if num = 0 then ofParts negative 0 0
  else
    let exponent := max (floorLog2 num den - 52) (-1074)
    let mantissa := roundDiv (num * Nat.pow 2 (-exponent).toNat) (den * Nat.pow 2 exponent.toNat)
    ofParts negative mantissa exponent

def infinity : Float := 1.0 / 0.0

def nan : Float := 0.0 / 0.0

/-- The number nearest to `digits * 10 ^ exponent`. Powers that no number can hold are cut short
before they are computed. -/
def ofDecimal (negative : Bool) (digits : Nat) (exponent : Int) : Float :=
  let size : Int := digits.log2 / 4
  if digits = 0 ∨ exponent + 4 * size < -1400 then ofParts negative 0 0
  else if 400 < exponent + size then if negative then -infinity else infinity
  else ofRatio negative (digits * Nat.pow 10 exponent.toNat) (Nat.pow 10 (-exponent).toNat)

/-- The exact remainder: both numbers are brought to one exponent and divided as naturals. -/
def remainder (x y : Float) : Float :=
  if x.abs < y.abs then x
  else
    match parts x, parts y with
    | .finite negative m e, .finite _ n f =>
      if n = 0 then nan
      else
        let exponent := min e f
        let rest := m * Nat.pow 2 (e - exponent).toNat % (n * Nat.pow 2 (f - exponent).toNat)
        ofParts negative rest exponent
    | _, _ => nan

/-- Squares of numbers from here on are exact enough. -/
def squareFloor : Float := ofParts false 1 (-460)

/-- Squares of numbers up to here are numbers. -/
def squareCeiling : Float := ofParts false 1 500

/-- The length of a plane vector. Where a square leaves the range, both sides are scaled by the
longer one first. -/
def hypot (x y : Float) : Float :=
  if x.isInf || y.isInf then infinity
  else
    let plain := (x * x + y * y).sqrt
    if plain.isNaN || (squareFloor < plain && plain < squareCeiling) then plain
    else
      let longer := if x.abs < y.abs then y.abs else x.abs
      if longer == 0.0 then 0.0
      else longer * ((x / longer) * (x / longer) + (y / longer) * (y / longer)).sqrt

end Toolpath.Double
