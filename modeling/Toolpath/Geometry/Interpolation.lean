import Toolpath.Geometry.Pose

/-!
Values, rows of axis values and poses between a start and an end. A moment `t` of the span from
`start` to `stop` is turned into its share of the span; a span shorter than rounding ends at once.
Outside the span the values are continued.
-/

set_option autoImplicit false
set_option relaxedAutoImplicit false

namespace Toolpath

/-- A span of time with a moment in it. -/
structure Moment (α : Type) where
  t : α
  start : α
  stop : α

namespace Moment

variable {α : Type} [Scalar α]

def isInstant (m : Moment α) : Bool :=
  Scalar.abs (m.stop - m.start) < Scalar.epsilon

def share (m : Moment α) : α :=
  if m.isInstant then 1 else (m.t - m.start) / (m.stop - m.start)

/-- The share `part / whole` of a motion. -/
def ofParts (part whole : Nat) : Moment α :=
  ⟨(part : α) / (whole : α), 0, 1⟩

def interpolate (m : Moment α) (a b : α) : α :=
  if m.isInstant then b else a + (b - a) * ((m.t - m.start) / (m.stop - m.start))

/-- Every value interpolated. A value with no start is taken as it is. -/
def interpolateAll (m : Moment α) : List α → List α → List α
  | _, [] => []
  | [], b :: bs => m.interpolate b b :: interpolateAll m [] bs
  | a :: as, b :: bs => m.interpolate a b :: interpolateAll m as bs

/-- The position on the straight line and the rotation on the shorter arc; between opposite
rotations on the chord. -/
def interpolatePose (m : Moment α) (a b : Pose α) : Pose α :=
  let s := m.share
  { position := a.position.mix b.position s
    rotation := (a.rotation.slerp? b.rotation s).getD (a.rotation.nlerp b.rotation s) }

end Moment

end Toolpath
