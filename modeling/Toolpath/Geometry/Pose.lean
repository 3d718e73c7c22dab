import Toolpath.Geometry.Rotation

/-!
Rigid motions of space: a rotation followed by a translation, in millimetres. The product composes,
`inverse` undoes. A pose also stands for the coordinate frame that it moves the world to.
-/

set_option autoImplicit false
set_option relaxedAutoImplicit false

namespace Toolpath

structure Pose (α : Type) where
  position : Vec3 α
  rotation : Rotation α
  deriving DecidableEq, Repr

namespace Pose

variable {α : Type} [Scalar α]

instance : One (Pose α) := ⟨⟨0, 1⟩⟩

instance : Mul (Pose α) :=
  ⟨fun a b ↦ ⟨a.position + a.rotation.apply b.position, a.rotation * b.rotation⟩⟩

instance : Inhabited (Pose α) := ⟨1⟩

def inverse (a : Pose α) : Pose α :=
  let r := a.rotation.inverse
  ⟨r.apply (-a.position), r⟩

def translation (x y z : α) : Pose α :=
  ⟨⟨x, y, z⟩, 1⟩

def ofRotation (r : Rotation α) : Pose α :=
  ⟨0, r⟩

/-- A position and roll, pitch and yaw in degrees. -/
def ofXyzRpy (x y z roll pitch yaw : α) : Pose α :=
  { position := ⟨x, y, z⟩
    rotation := .ofRollPitchYaw (Scalar.ofDegrees roll) (Scalar.ofDegrees pitch)
      (Scalar.ofDegrees yaw) }

def applyPoint (a : Pose α) (point : Vec3 α) : Vec3 α :=
  a.rotation.apply point + a.position

/-- The world direction of the X axis of the frame. -/
def xAxis (a : Pose α) : Vec3 α :=
  a.rotation.apply Vec3.xAxis

/-- The world direction of the Z axis of the frame. -/
def zAxis (a : Pose α) : Vec3 α :=
  a.rotation.apply Vec3.zAxis

def distance (a b : Pose α) : α :=
  (b.position - a.position).norm

/-- The larger of the angles between the Z axes and between the X axes. -/
def turn (a b : Pose α) : α :=
  Scalar.larger (a.zAxis.angle b.zAxis) (a.xAxis.angle b.xAxis)

end Pose

end Toolpath
