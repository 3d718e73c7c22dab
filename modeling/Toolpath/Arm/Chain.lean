import Toolpath.Angle
import Toolpath.Fault
import Toolpath.Geometry.Pose

/-!
Serial chains of links. A link turns about the previous Z axis, is offset along it, extends along
the new X axis and twists about that: `Rz(q) · Tz(offset) · Tx(length) · Rx(twist)`. `chain` gives
the pose of every joint frame, the last one being the end of the chain.
-/

set_option autoImplicit false
set_option relaxedAutoImplicit false

namespace Toolpath

/-- The axes of an arm are numbered from zero. -/
instance neZeroSix : @NeZero Nat Zero.ofOfNat0 6 := ⟨Nat.succ_ne_zero 5⟩

structure Link (α : Type) where
  length : α
  offset : α
  twist : α
  deriving DecidableEq, Repr

/-- One analytic solution of a flange pose. -/
structure Branch (α : Type) where
  joints : List α
  faults : List Fault

variable {α : Type} [Scalar α]

/-- Closeness to a singular pose, as a cosine, a sine or a radius in millimetres. -/
def singularityTolerance : α := 1.0e-4

def Link.transform (link : Link α) (angle : α) : Pose α :=
  (⟨⟨0, 0, link.offset⟩, .aboutZ angle⟩ : Pose α) * ⟨⟨link.length, 0, 0⟩, .aboutX link.twist⟩

/-- The poses of the joint frames after the pose `start`. -/
def chainFrom (start : Pose α) : List (Link α) → List α → List (Pose α)
  | link :: links, angle :: angles =>
    let pose := start * link.transform angle
    pose :: chainFrom pose links angles
  | _, _ => []

def chain (links : List (Link α)) (angles : List α) : List (Pose α) :=
  chainFrom 1 links angles

/-- The pose at the end of the chain. -/
def chainEnd (links : List (Link α)) (angles : List α) : Pose α :=
  (chain links angles).getLastD 1

/-- The angle between the sides `a` and `b` of a triangle with the opposite side `c`, where the
triangle closes. A side of length zero encloses no angle, whatever the numbers make of a quotient by
zero. -/
def triangleAngle? (a b c : α) : Option α :=
  let divisor := Scalar.two * a * b
  let x := (a * a + b * b - c * c) / divisor
  if (divisor < 0 ∨ 0 < divisor) ∧ Scalar.isFinite x ∧ Scalar.abs x ≤ 1 then
    some (Scalar.arccos x)
  else none

/-- An axis value as it is handed out: reduced, and zero where the computation broke down. -/
def settle (value : α) : α :=
  if Scalar.isFinite value then Angle.normalize value else 0

/-- The last three axes of a spherical wrist from its rotation `Rz(q₄) · Ry(q₅) · Rz(q₆)`. `positive`
selects the sign of the middle axis. With a straight wrist only the sum of the outer axes is known
and the last one takes it. -/
def wristAngles (residual : Basis α) (positive : Bool) : List α × List Fault :=
  let c5 := residual.z.z
  if Scalar.abs (c5 - 1) < singularityTolerance then
    ([0, 0, Scalar.arctan2 residual.x.y residual.x.x], [.wristSingular])
  else
    let sign : α := if positive then 1 else -1
    let s5 := sign * Scalar.sqrt (Scalar.larger (1 - c5 * c5) 0)
    ([Scalar.arctan2 (sign * residual.z.y) (sign * residual.z.x), Scalar.arctan2 s5 c5,
      Scalar.arctan2 (sign * residual.y.z) (-sign * residual.x.z)], [])

end Toolpath
