import Toolpath.Arm.Chain

/-!
Seven-axis arms with a spherical shoulder, an elbow and a spherical wrist. Axis 3 is not solved but
given, usually by the axis values to start from, so that the elbow stays where it is along a path.
The solver reads the offsets 0, 2, 4 and 6; the links have no length.
-/

set_option autoImplicit false
set_option relaxedAutoImplicit false

namespace Toolpath

structure RedundantArm (α : Type) where
  offsets : Fin 7 → α

namespace RedundantArm

variable {α : Type} [Scalar α]

def link (arm : RedundantArm α) (place : Fin 7) (twist : α) : Link α :=
  ⟨0, arm.offsets place, twist⟩

def links (arm : RedundantArm α) : List (Link α) :=
  [arm.link 0 (-Scalar.quarterTurn), arm.link 1 Scalar.quarterTurn, arm.link 2 Scalar.quarterTurn,
    arm.link 3 (-Scalar.quarterTurn), arm.link 4 (-Scalar.quarterTurn),
    arm.link 5 Scalar.quarterTurn, arm.link 6 0]

def forward (arm : RedundantArm α) (joints : List α) : List (Pose α) :=
  chain arm.links joints

/-- The wrist centre as seen from the shoulder. -/
def wristCentre (arm : RedundantArm α) (flange : Pose α) : Vec3 α :=
  flange.position - flange.zAxis.scale (arm.offsets 6) - ⟨0, 0, arm.offsets 0⟩

/-- Axis 4 from the distance between shoulder and wrist centre. -/
def axisFour (arm : RedundantArm α) (centre : Vec3 α) (elbow : Bool) : α × List Fault :=
  let upper := arm.offsets 2
  let fore := arm.offsets 4
  let x := (centre.normSq - upper * upper - fore * fore) / (Scalar.two * upper * fore)
  let q4 := Scalar.arccos (Scalar.clamp (-1) 1 x)
  (if elbow then -q4 else q4, if 1 < Scalar.abs x then [.outOfReach] else [])

/-- The wrist centre as seen from axis 2, which depends on axes 3 and 4 alone. -/
def shoulderPoint (arm : RedundantArm α) (q3 q4 : α) : Vec3 α :=
  ((arm.link 2 Scalar.quarterTurn).transform q3 *
    (arm.link 3 (-Scalar.quarterTurn)).transform q4).applyPoint ⟨0, 0, arm.offsets 4⟩

/-- Axis 2 lifts the point `p` to the height of the wrist centre. -/
def axisTwo (centre p : Vec3 α) (shoulder : Bool) : α × List Fault :=
  let radius := Scalar.hypot p.x p.z
  let x := if singularityTolerance < radius then centre.z / radius else Scalar.two
  let arc := Scalar.arccos (Scalar.clamp (-1) 1 x)
  let phi := Scalar.arctan2 p.x p.z
  (if shoulder then -phi - arc else -phi + arc, if 1 < Scalar.abs x then [.outOfReach] else [])

/-- Closer than this to the base axis, the wrist centre does not fix axis 1. -/
def baseTolerance : α := 1.0e-6

/-- Axis 1 turns the lifted point towards the wrist centre. -/
def axisOne (centre p : Vec3 α) (q2 : α) : α × List Fault :=
  let v := (Rotation.aboutZ q2 * .aboutX Scalar.quarterTurn).apply p
  (Scalar.arctan2 centre.y centre.x - Scalar.arctan2 v.z v.x,
    if Scalar.hypot centre.x centre.y < baseTolerance then [.shoulderSingular] else [])

/-- The rotation of the flange as seen from the wrist. -/
def wristRotation (arm : RedundantArm α) (flange : Pose α) (position : List α) : Basis α :=
  flange.rotation.basis.relativeTo (chainEnd (arm.links.take 4) position).rotation.basis

def inverse (arm : RedundantArm α) (flange : Pose α) (configuration : Configuration)
    (redundancy : α) : Branch α :=
  let centre := arm.wristCentre flange
  let (q4, faults4) := arm.axisFour centre (configuration.includes .elbow)
  let p := arm.shoulderPoint redundancy q4
  let (q2, faults2) := axisTwo centre p (configuration.includes .shoulder)
  let (q1, faults1) := axisOne centre p q2
  let position := [q1, q2, redundancy, q4]
  let (wrist, wristFaults) := wristAngles (arm.wristRotation flange position)
    (!configuration.includes .wrist)
  { joints := (position ++ wrist).map settle
    faults := faults4 ++ faults2 ++ faults1 ++ wristFaults }

end RedundantArm

end Toolpath
