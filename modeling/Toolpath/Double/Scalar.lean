import Toolpath.Scalar
import Toolpath.Double

/-!
Binary floating point numbers as scalars: the numbers that programs are compiled with.
-/

set_option autoImplicit false
set_option relaxedAutoImplicit false

namespace Toolpath

instance : Scalar Float where
  zero := 0.0
  one := 1.0
  natCast n := Float.ofNat n
  decLT := Float.decLt
  decLE := Float.decLe
  pi := 3.141592653589793
  sqrt := Float.sqrt
  sin := Float.sin
  cos := Float.cos
  arccos := Float.acos
  arctan2 := Float.atan2
  hypot := Double.hypot
  remainder := Double.remainder
  round := Float.round
  ceilNat x := x.ceil.toUInt64.toNat

end Toolpath
