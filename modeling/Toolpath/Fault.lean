import Toolpath.Configuration

/-!
What can be wrong with the solution of a target: singular poses, poses out of reach and axis values
out of range. Faults travel with the solution and do not stop the solver. Axes are counted from
zero here and from one in the text.
-/

set_option autoImplicit false
set_option relaxedAutoImplicit false

namespace Toolpath

inductive Fault where
  /-- The wrist centre lies over the base axis. -/
  | wristCentreOverBase
  | shoulderSingular
  | wristSingular
  | outOfReach
  /-- A branch whose axis values are not all finite. -/
  | noNumericSolution (branch : Configuration)
  /-- A joint target with the wrong number of values. -/
  | jointCount (given axes : Nat)
  | axisOutOfRange (axis : Nat)
  | mechanismOutOfRange (axis : Nat) (mechanism : String)
  deriving DecidableEq, Repr

namespace Fault

def message : Fault → String
  | wristCentreOverBase => "Near shoulder singularity (wrist centre above the base axis)."
  | shoulderSingular => "Near shoulder singularity."
  | wristSingular => "Near wrist singularity."
  | outOfReach => "Target out of reach."
  | noNumericSolution branch => "Branch " ++ branch.toText ++ " has no numeric solution."
  | jointCount given axes =>
    "Joint target has " ++ toString given ++ " values but the arm has " ++ toString axes ++ " axes."
  | axisOutOfRange axis => "Axis " ++ toString (axis + 1) ++ " is outside the permitted range."
  | mechanismOutOfRange axis mechanism =>
    "Axis " ++ toString (axis + 1) ++ " of " ++ mechanism ++ " is outside the permitted range."

end Fault

end Toolpath
