import Toolpath.Double

/-!
Decimal text with a fixed number of places. The exact value is rounded once, a half going to the
even last digit; a negative sign is kept, also before a value that rounds to zero.
-/

set_option autoImplicit false
set_option relaxedAutoImplicit false

namespace Toolpath.Decimal

/-- The digits of `n`, filled up with leading zeros to the given width. -/
def padded (width n : Nat) : String :=
  let digits := Nat.toDigits 10 n
  String.ofList (List.replicate (width - digits.length) '0' ++ digits)

/-- The text of `units / 10 ^ places`. -/
def placed (units places : Nat) : String :=
  if places = 0 then toString units
  else
    let scale := Nat.pow 10 places
    toString (units / scale) ++ "." ++ padded places (units % scale)

def signed (negative : Bool) (text : String) : String :=
  if negative then "-" ++ text else text

def fixed (places : Nat) (x : Float) : String :=
  match Double.parts x with
  | .nan => "NaN"
  | .infinite negative => signed negative "inf"
  | .finite negative mantissa exponent =>
    let num := mantissa * Nat.pow 10 places * Nat.pow 2 exponent.toNat
    signed negative (placed (Double.roundDiv num (Nat.pow 2 (-exponent).toNat)) places)

/-- The text set to the right in a field of the given width. -/
def alignRight (width : Nat) (text : String) : String :=
  String.ofList (List.replicate (width - text.length) ' ') ++ text

end Toolpath.Decimal
