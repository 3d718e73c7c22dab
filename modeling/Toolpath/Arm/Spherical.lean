import Toolpath.Arm.Chain

/-!
Six-axis arms with a parallel base and a spherical wrist: axes 4, 5 and 6 meet in one point, the
wrist centre. The first three axes place the wrist centre, the last three turn the flange. The
solver reads the lengths 0 to 2 and the offsets 0, 3 and 5.
-/

set_option autoImplicit false
set_option relaxedAutoImplicit false

namespace Toolpath

structure SphericalWrist (α : Type) where
  lengths : Fin 6 → α
  offsets : Fin 6 → α

namespace SphericalWrist

variable {α : Type} [Scalar α]

def links (arm : SphericalWrist α) : List (Link α) :=
  [⟨arm.lengths 0, arm.offsets 0, Scalar.quarterTurn⟩,
    ⟨arm.lengths 1, arm.offsets 1, 0⟩,
    ⟨arm.lengths 2, arm.offsets 2, Scalar.quarterTurn⟩,
    ⟨arm.lengths 3, arm.offsets 3, -Scalar.quarterTurn⟩,
    ⟨arm.lengths 4, arm.offsets 4, Scalar.quarterTurn⟩,
    ⟨arm.lengths 5, arm.offsets 5, 0⟩]

def forward (arm : SphericalWrist α) (joints : List α) : List (Pose α) :=
  chain arm.links joints

def wristCentre (arm : SphericalWrist α) (flange : Pose α) : Vec3 α :=
  flange.position - flange.zAxis.scale (arm.offsets 5)

/-- The distance from the elbow to the wrist centre. -/
def forearm (arm : SphericalWrist α) : α :=
  Scalar.hypot (arm.lengths 2) (arm.offsets 3)

/-- Axis 2 with the arm turned towards the wrist centre `c`, at the distance `radius` from the base
axis. -/
def axisTwo (arm : SphericalWrist α) (c : Vec3 α) (radius : α) : Vec3 α :=
  if Scalar.epsilon < radius then
    ⟨arm.lengths 0 * c.x / radius, arm.lengths 0 * c.y / radius, arm.offsets 0⟩
  else ⟨arm.lengths 0, 0, arm.offsets 0⟩

/-- The angles of the triangle of axis 2, elbow and wrist centre at axis 2 and at the elbow; none
where the triangle does not close, and then the arm is stretched out. -/
def elbowTriangle (arm : SphericalWrist α) (span : α) : (α × α) × Bool :=
  let upper := arm.lengths 1
  match triangleAngle? upper span arm.forearm, triangleAngle? upper arm.forearm span with
  | some beta, some gamma => ((beta, gamma), true)
  | beta, gamma => ((beta.getD 0, gamma.getD Scalar.pi), false)

/-- The first three axes of a branch, and whether its triangle closes. The shoulder flag turns the
base away from the wrist centre, the elbow flag mirrors the triangle. -/
def position (arm : SphericalWrist α) (c : Vec3 α) (shoulder elbow : Bool) : List α × Bool :=
  let radius := Scalar.hypot c.x c.y
  let base := Scalar.arctan2 c.y c.x
  let two := arm.axisTwo c radius
  let seen : Vec3 α := if shoulder then ⟨-c.x, -c.y, c.z⟩ else c
  let ((beta, gamma), closes) := arm.elbowTriangle (seen - two).norm
  let mirrored := elbow != shoulder
  let beta := if mirrored then -beta else beta
  let gamma := if mirrored then -gamma else gamma
  let reach := if shoulder then -(radius + arm.lengths 0) else radius - arm.lengths 0
  let elevation := Scalar.arctan2 (c.z - two.z) reach
  let forearmAngle := Scalar.arctan2 (arm.lengths 2) (arm.offsets 3)
  ([if shoulder then base + Scalar.pi else base, beta + elevation,
    gamma - forearmAngle - Scalar.quarterTurn], closes)

/-- The rotation of the flange as seen from the wrist. -/
def wristRotation (arm : SphericalWrist α) (flange : Pose α) (position : List α) : Basis α :=
  flange.rotation.basis.relativeTo (chainEnd (arm.links.take 3) position).rotation.basis

def inverse (arm : SphericalWrist α) (flange : Pose α) (configuration : Configuration) :
    Branch α :=
  let c := arm.wristCentre flange
  let overBase := Scalar.hypot c.x c.y < arm.lengths 0 + singularityTolerance
  let (position, closes) := arm.position c (configuration.includes .shoulder)
    (configuration.includes .elbow)
  let (wrist, wristFaults) := wristAngles (arm.wristRotation flange position)
    (!configuration.includes .wrist)
  { joints := (position ++ wrist).map settle
    faults := (if overBase then [.wristCentreOverBase] else []) ++ wristFaults ++
      (if closes then [] else [.outOfReach]) }

end SphericalWrist

end Toolpath
