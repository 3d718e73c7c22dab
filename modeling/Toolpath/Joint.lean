import Toolpath.Scalar

/-!
One axis of an arm or of an external mechanism. Revolute axes are measured in radians, prismatic
ones in millimetres.
-/

set_option autoImplicit false
set_option relaxedAutoImplicit false

namespace Toolpath

inductive JointKind where
  | revolute
  | prismatic
  deriving DecidableEq, Repr

structure Joint (α : Type) where
  /-- The length of the link along the common normal. External mechanisms do not read it. -/
  length : α
  /-- The offset of the link along the previous Z axis. External mechanisms do not read it. -/
  offset : α
  low : α
  high : α
  maxSpeed : α
  kind : JointKind
  deriving DecidableEq, Repr

namespace Joint

variable {α : Type} [Scalar α]

def revolute (length offset low high maxSpeed : α) : Joint α :=
  ⟨length, offset, low, high, maxSpeed, .revolute⟩

def prismatic (low high maxSpeed : α) : Joint α :=
  ⟨0, 0, low, high, maxSpeed, .prismatic⟩

/-- A revolute axis with its range and speed in degrees. -/
def revoluteDegrees (length offset low high maxSpeed : α) : Joint α :=
  revolute length offset (Scalar.ofDegrees low) (Scalar.ofDegrees high) (Scalar.ofDegrees maxSpeed)

def isPrismatic (joint : Joint α) : Bool :=
  joint.kind == .prismatic

/-- How far past its range an axis value may lie and still count as inside. -/
def tolerance (joint : Joint α) : α :=
  match joint.kind with
  | .revolute => 1.0e-9
  | .prismatic => 1.0e-6

def isInRange (joint : Joint α) (value : α) : Bool :=
  joint.low - joint.tolerance ≤ value && value ≤ joint.high + joint.tolerance

/-- The value of the range nearest to the given one. -/
def clamp (joint : Joint α) (value : α) : α :=
  Scalar.smaller (Scalar.larger value joint.low) joint.high

/-- The value itself where it is in range, the nearest end of the range elsewhere. -/
def limit (joint : Joint α) (value : α) : α :=
  if joint.isInRange value then value else joint.clamp value

end Joint

/-- Every value limited to the range of its axis; values past the last axis stay. -/
def limitAll {α : Type} [Scalar α] : List (Joint α) → List α → List α
  | _, [] => []
  | [], values => values
  | joint :: joints, value :: values => joint.limit value :: limitAll joints values

/-- The places of the values that are out of the range of their axis. -/
def outOfRange {α : Type} [Scalar α] (joints : List (Joint α)) (values : List α) : List Nat :=
  (joints.zip values).zipIdx.filterMap fun ((joint, value), place) ↦
    if joint.isInRange value then none else some place

end Toolpath
