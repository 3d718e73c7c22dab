import Toolpath.Decimal.Fixed
import Toolpath.Decimal.Written
import Toolpath.Geometry.Pose

/-!
Axis values and poses as lines of text for a reader. Angles are shown in degrees, with two places in
columns of a fixed width.
-/

set_option autoImplicit false
set_option relaxedAutoImplicit false

namespace Toolpath

variable {α : Type} [Scalar α] [DecimalText α]

/-- A number with two places, set to the right in a column. -/
def column (width : Nat) (value : α) : String :=
  Decimal.alignRight width (DecimalText.fixed 2 value)

/-- Axis values converted from radians to degrees. -/
def jointsText (joints : List α) : String :=
  "[" ++ " ".intercalate (joints.map fun joint ↦ column 5 (Scalar.toDegrees joint)) ++ "]"

/-- The position of a pose with its roll, pitch and yaw. -/
def Pose.toText (pose : Pose α) : String :=
  let p := pose.position
  let (roll, pitch, yaw) := pose.rotation.rollPitchYaw
  "[" ++ " ".intercalate ([p.x, p.y, p.z].map (column 8)) ++ "] rpy [" ++
    " ".intercalate ([roll, pitch, yaw].map fun angle ↦ column 7 (Scalar.toDegrees angle)) ++ "]"

end Toolpath
