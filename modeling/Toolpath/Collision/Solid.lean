import Toolpath.Geometry.Pose

/-!
Solid shapes and whether two of them touch or overlap. A solid is a union of bodies: balls, boxes and
half-spaces, each in a pose of its own. Two boxes are apart when some axis separates them, one of
the face normals or of the products of two edges. Two half-spaces are never compared.
-/

set_option autoImplicit false
set_option relaxedAutoImplicit false

namespace Toolpath

inductive Body (α : Type) where
  | ball (radius : α)
  | box (half : Vec3 α)
  /-- The side of a plane through the origin that its normal points away from. -/
  | halfspace (normal : Vec3 α)

structure Solid (α : Type) where
  bodies : List (Pose α × Body α)

variable {α : Type} [Scalar α]

namespace Body

/-- The box centred in its pose, as far as it reaches along a direction. -/
def reach (half direction : Vec3 α) : α :=
  half.x * Scalar.abs direction.x + half.y * Scalar.abs direction.y +
    half.z * Scalar.abs direction.z

/-- The squared distance of a point from the box. -/
def boxDistanceSq (half point : Vec3 α) : α :=
  let outside (h p : α) := Scalar.larger (Scalar.abs p - h) 0
  (⟨outside half.x point.x, outside half.y point.y, outside half.z point.z⟩ : Vec3 α).normSq

/-- Whether a ball around a point, in the coordinates of the body, touches it. The sign of its radius
does not count, save against another ball. -/
def touchesBall (body : Body α) (centre : Vec3 α) (radius : α) : Bool :=
  match body with
  | ball own => decide (centre.normSq ≤ Scalar.square (own + radius))
  | box half => decide (boxDistanceSq half centre ≤ Scalar.square radius)
  | halfspace normal => decide (normal.dot centre ≤ Scalar.abs radius)

/-- Whether the axis separates two boxes, the second one standing in the pose `p` of the first. -/
def separates (a b : Vec3 α) (p : Pose α) (axis : Vec3 α) : Bool :=
  let back := p.rotation.inverse.apply axis
  decide (reach a axis + reach b back < Scalar.abs (p.position.dot axis))

/-- Products of edges shorter than this come from parallel edges and give no axis. -/
def parallelTolerance : α := 1.0e-6

/-- The axes that can separate two boxes. -/
def separatingAxes (p : Pose α) : List (Vec3 α) :=
  let own : List (Vec3 α) := [.xAxis, .yAxis, .zAxis]
  let other := own.map p.rotation.apply
  let products := own.flatMap fun a ↦ other.map a.cross
  own ++ other ++ products.filter fun axis ↦ parallelTolerance < axis.norm

def boxesTouch (a b : Vec3 α) (p : Pose α) : Bool :=
  (separatingAxes p).all fun axis ↦ !separates a b p axis

/-- Whether a box in the pose `p` reaches below the plane of a half-space. -/
def boxBelow (normal half : Vec3 α) (p : Pose α) : Bool :=
  decide (normal.dot p.position - reach half (p.rotation.inverse.apply normal) ≤ 0)

/-- Whether two bodies touch, the second one standing in the pose `p` of the first. -/
def touch (a b : Body α) (p : Pose α) : Bool :=
  match a, b with
  | a, ball radius => a.touchesBall p.position radius
  | ball radius, b => b.touchesBall p.inverse.position radius
  | box a, box b => boxesTouch a b p
  | halfspace normal, box half => boxBelow normal half p
  | box half, halfspace normal => boxBelow normal half p.inverse
  | halfspace _, halfspace _ => false

end Body

namespace Solid

def ofBody (body : Body α) : Solid α :=
  ⟨[(1, body)]⟩

/-- The solid in another pose. -/
def move (pose : Pose α) (solid : Solid α) : Solid α :=
  ⟨solid.bodies.map fun (p, body) ↦ (pose * p, body)⟩

/-- The union of solids. -/
def union (solids : List (Solid α)) : Solid α :=
  ⟨solids.flatMap Solid.bodies⟩

def ball (radius : α) : Solid α :=
  ofBody (.ball radius)

def box (half : Vec3 α) : Solid α :=
  ofBody (.box half)

/-- The half-space below the plane through the origin with the given outward direction. -/
def halfspace (outward : Vec3 α) : Solid α :=
  ofBody (.halfspace (outward.scale (1 / outward.norm)))

/-- Whether two solids in the given poses touch or overlap. -/
def touches (poseA : Pose α) (a : Solid α) (poseB : Pose α) (b : Solid α) : Bool :=
  let between := poseA.inverse * poseB
  a.bodies.any fun (p, bodyA) ↦ b.bodies.any fun (q, bodyB) ↦
    bodyA.touch bodyB (p.inverse * (between * q))

end Solid

end Toolpath
