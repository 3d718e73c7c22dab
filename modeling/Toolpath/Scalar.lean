/-!
The numbers that poses, axis values and times are made of. `Scalar α` lists what the library asks
of them: field operations, an order that can be decided, roots, trigonometry and roundings. Every
algorithm of the library is written once over `Scalar`, so that it runs on binary floating point
and can be studied over exact numbers.

The order need not be total. A value that is not comparable with itself is unordered (`NaN` in
floating point); `larger`, `smaller` and `clamp` say what becomes of it. A value is finite when
its difference from itself is zero.
-/

set_option autoImplicit false
set_option relaxedAutoImplicit false

namespace Toolpath

class Scalar (α : Type) extends Add α, Sub α, Mul α, Div α, Neg α, Zero α, One α, NatCast α,
    OfScientific α, LT α, LE α where
  decLT : DecidableLT α
  decLE : DecidableLE α
  pi : α
  sqrt : α → α
  sin : α → α
  cos : α → α
  arccos : α → α
  /-- The angle of the point `(x, y)`, written `arctan2 y x`. -/
  arctan2 : α → α → α
  /-- The length of the plane vector `(x, y)`. -/
  hypot : α → α → α
  /-- What is left of the dividend after whole multiples of the divisor, with the sign of the
  dividend. -/
  remainder : α → α → α
  /-- The nearest whole number, a half going away from zero. -/
  round : α → α
  /-- The least natural number that is not below the value. -/
  ceilNat : α → Nat

namespace Scalar

attribute [reducible, instance] decLT decLE

variable {α : Type} [Scalar α]

def abs (x : α) : α :=
  if x < 0 then -x else x

/-- The larger of two values, an unordered one giving way to the other. -/
def larger (x y : α) : α :=
  if x < y then y else if x ≤ x then x else y

/-- The smaller of two values, an unordered one giving way to the other. -/
def smaller (x y : α) : α :=
  if y < x then y else if x ≤ x then x else y

/-- The value of `[low, high]` nearest to `x`; an unordered `x` stays. -/
def clamp (low high x : α) : α :=
  if x < low then low else if high < x then high else x

def isFinite (x : α) : Bool :=
  decide (x - x ≤ 0)

def two : α :=
  1 + 1

def square (x : α) : α :=
  x * x

/-- The largest of the values, and zero where none is above it. -/
def maximum (values : List α) : α :=
  values.foldl larger 0

/-- The distance from one to the next number in binary floating point. Intervals shorter than this
count as empty. -/
def epsilon : α := 2.220446049250313e-16

def quarterTurn : α := pi / two

def fullTurn : α := two * pi

/-- Radians of an angle in degrees. -/
def ofDegrees (degrees : α) : α :=
  degrees * (pi / 180.0)

/-- Degrees of an angle in radians. -/
def toDegrees (radians : α) : α :=
  radians * (180.0 / pi)

end Scalar

end Toolpath
