import Toolpath.Decimal.Shortest
import Toolpath.Decimal.Written

/-!
The decimal texts of binary floating point numbers.
-/

set_option autoImplicit false
set_option relaxedAutoImplicit false

namespace Toolpath

namespace Decimal

/-- The floating point number nearest to a written one. -/
def Written.toFloat : Written → Float
  | nan => Double.nan
  | infinite negative => if negative then -Double.infinity else Double.infinity
  | finite negative digits exponent => Double.ofDecimal negative digits exponent

end Decimal

instance : DecimalText Float where
  fixed := Decimal.fixed
  shortest := Decimal.shortest
  ofWritten := Decimal.Written.toFloat

end Toolpath
