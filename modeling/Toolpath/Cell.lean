import Toolpath.Mechanism

/-!
Robot cells. A group is an arm with its external mechanisms; a cell is a list of groups on a common
base. The planes of a group are the planes of its mechanisms, then arm base, arm joints (the last
one is the flange) and tool centre point.
-/

set_option autoImplicit false
set_option relaxedAutoImplicit false

namespace Toolpath

structure Group (α : Type) where
  arm : Arm α
  externals : List (Mechanism α)

structure Cell (α : Type) where
  name : String
  base : Pose α
  groups : List (Group α)

variable {α : Type} [Scalar α]

namespace Group

def externalCount (group : Group α) : Nat :=
  (group.externals.map Mechanism.axisCount).foldr (· + ·) 0

def jointCount (group : Group α) : Nat :=
  group.arm.axisCount + group.externalCount

/-- The axes of the group in the order of its axis values. -/
def joints (group : Group α) : List (Joint α) :=
  group.arm.joints ++ group.externals.flatMap Mechanism.joints

/-- How many planes the first mechanisms have together. -/
def mechanismPlaneCount (mechanisms : List (Mechanism α)) : Nat :=
  (mechanisms.map fun m ↦ m.axisCount + 1).foldr (· + ·) 0

def planeCount (group : Group α) : Nat :=
  mechanismPlaneCount group.externals + group.arm.axisCount + 2

/-- The place of the last plane of a mechanism. -/
def mechanismPlane? (group : Group α) (mechanism : Nat) : Option Nat :=
  if mechanism < group.externals.length then
    some (mechanismPlaneCount (group.externals.take (mechanism + 1)) - 1)
  else none

def flangePlane (group : Group α) : Nat :=
  group.planeCount - 2

def payload (group : Group α) : α :=
  group.arm.payload

/-- Every mechanism solved with its own slice of the external values. -/
def solveMechanisms (parent : Pose α) : List (Mechanism α) → List α → List (Solution α)
  | [], _ => []
  | mechanism :: rest, values =>
    mechanism.solve (values.take mechanism.axisCount) parent ::
      solveMechanisms parent rest (values.drop mechanism.axisCount)

/-- What the arm is mounted on: the last mechanism that moves the robot, else the cell. -/
def armParent (parent : Pose α) (mechanisms : List (Mechanism α)) (tips : List (Pose α)) :
    Pose α :=
  (mechanisms.zip tips).foldl (fun mount (mechanism, tip) ↦
    if mechanism.movesRobot then tip else mount) parent

/-- The world pose of a frame. `coupled` is the plane of the other group that carries the frame,
`tips` are the last planes of the mechanisms of the group itself. -/
def framePose (frame : Frame α) (group : Nat) (coupled : Option (Pose α)) (tips : List (Pose α)) :
    Pose α :=
  match frame.coupledGroup, frame.coupledMechanism with
  | none, _ => frame.pose
  | some other, some mechanism =>
    let carrier := if other = group then tips[mechanism]? else coupled
    (carrier.map (· * frame.pose)).getD frame.pose
  | some _, none => (coupled.map (· * frame.pose)).getD frame.pose

/-- Solves a target with the group that stands at place `index` of the cell. -/
def solve (group : Group α) (index : Nat) (target : Target α) (coupled : Option (Pose α))
    (previous : Option (List α)) (parent : Pose α) : Solution α :=
  let mechanisms := solveMechanisms parent group.externals target.external
  let tips := mechanisms.map Solution.tcp
  let frame := framePose target.frame index coupled tips
  let arm := group.arm.solve target frame (previous.map (·.take group.arm.axisCount))
    (armParent parent group.externals tips)
  { joints := arm.joints ++ mechanisms.flatMap Solution.joints
    planes := mechanisms.flatMap Solution.planes ++ arm.planes ++ [arm.tcp * target.tool.tcp]
    configuration := arm.configuration
    faults := arm.faults ++ mechanisms.flatMap Solution.faults
    frame }

end Group

namespace Cell

/-- The cell of one arm without externals, named after the arm. -/
def single (arm : Arm α) : Cell α :=
  ⟨arm.name, 1, [⟨arm, []⟩]⟩

/-- The payload of a group, zero past the last group. -/
def payload (cell : Cell α) (group : Nat) : α :=
  (cell.groups[group]?.map Group.payload).getD 0

def hasRedundantArm (cell : Cell α) : Bool :=
  cell.groups.any fun group ↦ 6 < group.arm.axisCount

/-- Running sums of the counts, each without its own. -/
def offsetsFrom (start : Nat) : List Nat → List Nat
  | [] => []
  | count :: counts => start :: offsetsFrom (start + count) counts

/-- Where the planes of each group start among the planes of all groups. -/
def planeOffsets (cell : Cell α) : List Nat :=
  offsetsFrom 0 (cell.groups.map Group.planeCount)

end Cell

end Toolpath
