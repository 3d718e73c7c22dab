import Toolpath.Arm.Chain

/-!
Six-axis arms with an offset wrist, as collaborative arms are built: axes 2, 3 and 4 are parallel.
Axis 1 makes axis 4 tangent to a circle around the base, axes 5 and 6 turn the flange, and axes 2
to 4 close a plane triangle. The solver reads the lengths 1 and 2 and the offsets 0, 3, 4 and 5.
-/

set_option autoImplicit false
set_option relaxedAutoImplicit false

namespace Toolpath

structure OffsetWrist (α : Type) where
  lengths : Fin 6 → α
  offsets : Fin 6 → α

/-- The arc cosine, the argument being clamped into its domain. Beyond round-off, clamping is a
fault. -/
def clampedArccos {α : Type} [Scalar α] (x : α) (fault : Fault) : α × List Fault :=
  (Scalar.arccos (Scalar.clamp (-1) 1 x),
    if singularityTolerance < Scalar.abs x - 1 then [fault] else [])

namespace OffsetWrist

variable {α : Type} [Scalar α]

def link (arm : OffsetWrist α) (place : Fin 6) (twist : α) : Link α :=
  ⟨arm.lengths place, arm.offsets place, twist⟩

def links (arm : OffsetWrist α) : List (Link α) :=
  [arm.link 0 Scalar.quarterTurn, arm.link 1 0, arm.link 2 0, arm.link 3 Scalar.quarterTurn,
    arm.link 4 (-Scalar.quarterTurn), arm.link 5 0]

def forward (arm : OffsetWrist α) (joints : List α) : List (Pose α) :=
  chain arm.links joints

/-- Axis 1: the centre of the wrist lies at the offset 3 from the plane of the arm. -/
def axisOne (arm : OffsetWrist α) (flange : Pose α) (shoulder : Bool) : α × List Fault :=
  let normal := flange.zAxis
  let a := arm.offsets 5 * normal.y - flange.position.y
  let b := arm.offsets 5 * normal.x - flange.position.x
  let radius := Scalar.sqrt (a * a + b * b)
  let ratio := arm.offsets 3 / radius
  let singular : Bool := radius < singularityTolerance || 1 < Scalar.abs ratio
  let arc := if singular then 0 else Scalar.arccos ratio
  let direction := Scalar.arctan2 (-a) (-b)
  (if shoulder then direction - arc + Scalar.quarterTurn
    else direction + arc + Scalar.quarterTurn,
    if singular then [.shoulderSingular] else [])

/-- Axis 5 from the distance of the flange to the plane of the arm. -/
def axisFive (arm : OffsetWrist α) (flange : Pose α) (q1 : α) (positive : Bool) :
    α × List Fault :=
  let p := flange.position
  let x := (p.x * Scalar.sin q1 - p.y * Scalar.cos q1 - arm.offsets 3) / arm.offsets 5
  let (q5, faults) := clampedArccos x .outOfReach
  (if positive then q5 else -q5, faults)

/-- Axis 6, free where axis 5 aligns the axes 4 and 6. -/
def axisSix (flange : Pose α) (q1 q5 : α) : α × List Fault :=
  let s1 := Scalar.sin q1
  let c1 := Scalar.cos q1
  let s5 := Scalar.sin q5
  let m := flange.inverse.rotation.basis
  if Scalar.abs s5 < singularityTolerance then (0, [.wristSingular])
  else
    (Scalar.arctan2 ((-m.x.y * s1 + m.y.y * c1) / s5) ((m.x.x * s1 - m.y.x * c1) / s5), [])

/-- The pose of axis 4 as seen from axis 2. -/
def forearmPose (arm : OffsetWrist α) (flange : Pose α) (q1 q5 q6 : α) : Pose α :=
  ((arm.link 0 Scalar.quarterTurn).transform q1).inverse * flange *
    ((arm.link 4 (-Scalar.quarterTurn)).transform q5 * (arm.link 5 0).transform q6).inverse

/-- The argument of the arc cosine that gives axis 3. -/
def elbowCosine (arm : OffsetWrist α) (forearm : Pose α) : α :=
  let length := Scalar.hypot forearm.position.x forearm.position.y
  (length * length - arm.lengths 1 * arm.lengths 1 - arm.lengths 2 * arm.lengths 2) /
    (Scalar.two * arm.lengths 1 * arm.lengths 2)

/-- Axes 2, 3 and 4 from the plane triangle between axis 2 and axis 4. -/
def planeAxes (arm : OffsetWrist α) (forearm : Pose α) (elbow : Bool) : (α × α × α) × List Fault :=
  let px := forearm.position.x
  let py := forearm.position.y
  let (q3, faults) := clampedArccos (arm.elbowCosine forearm) .outOfReach
  let q3 := if elbow then -q3 else q3
  let q2 := Scalar.arctan2 py px -
    Scalar.arctan2 (arm.lengths 2 * Scalar.sin q3) (arm.lengths 1 + arm.lengths 2 * Scalar.cos q3)
  let wrist := ((arm.link 2 0).transform q3).inverse * ((arm.link 1 0).transform q2).inverse *
    forearm
  let m := wrist.rotation.basis
  ((q2, q3, Scalar.arctan2 m.x.y m.x.x), faults)

def inverse (arm : OffsetWrist α) (flange : Pose α) (configuration : Configuration) : Branch α :=
  let shoulder := configuration.includes .shoulder
  let elbow := configuration.includes .elbow != shoulder
  let (q1, faults1) := arm.axisOne flange shoulder
  let (q5, faults5) := arm.axisFive flange q1 (!configuration.includes .wrist)
  let (q6, faults6) := axisSix flange q1 q5
  let ((q2, q3, q4), faults3) := arm.planeAxes (arm.forearmPose flange q1 q5 q6) elbow
  let joints := [q1, q2, q3, q4, q5, q6]
  { joints := joints.map settle
    faults := faults1 ++ faults5 ++ faults6 ++ faults3 ++
      (if joints.all Scalar.isFinite then [] else [.noNumericSolution configuration]) }

end OffsetWrist

end Toolpath
