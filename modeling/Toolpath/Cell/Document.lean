import Toolpath.Cell
import Toolpath.Yaml.Document

/-!
Robot cells described in YAML: a name, a base and the groups, each an arm with its external
mechanisms. Poses are lists of position and roll, pitch and yaw in degrees. Only the first document
of a text is read.
-/

set_option autoImplicit false
set_option relaxedAutoImplicit false

namespace Toolpath

/-- Why a document describes no cell. -/
inductive DocumentError (α : Type) where
  | notYaml
  | noDocument
  | notList (field : String)
  | notNumber (field : String)
  | unknownManufacturer (name : String)
  | unknownTopology (name : String)
  | unknownMechanism (type : String)
  | missing (field : String)
  | poseLength (found : Nat)
  | emptyRange (low high : α)
  | noGroups
  | mechanism (error : MechanismError)
  deriving DecidableEq, Repr

namespace DocumentError

/-- The complaint about a text that cannot be read. -/
def unreadable (problem : String) : String :=
  "Parse Error: " ++ problem

/-- The complaint about a cell that cannot be built. -/
def unbuildable (problem : String) : String :=
  "Kinematics Configuration Error: " ++ problem

def message {α : Type} [DecimalText α] : DocumentError α → String
  | notYaml => unreadable "the text is not YAML"
  | noDocument => unreadable "empty document"
  | notList field => unreadable (field ++ " must be a list")
  | notNumber field => unreadable (field ++ " is not a number")
  | unknownManufacturer name => unreadable (Manufacturer.unknownMessage name)
  | unknownTopology name => unreadable ("unknown topology '" ++ name ++ "'")
  | unknownMechanism type => unreadable ("unknown mechanism type '" ++ type ++ "'")
  | missing field => "Missing Field: " ++ field
  | poseLength found => "Invalid Length: expected 6, found " ++ toString found
  | emptyRange low high =>
    unbuildable ("joint range [" ++ DecimalText.shortest low ++ ", " ++
      DecimalText.shortest high ++ "] is empty")
  | noGroups => unbuildable "the cell has no mechanical groups"
  | mechanism error => unbuildable (StructureError.mechanism (α := α) error).message

end DocumentError

namespace Yaml.Node

variable {α : Type} [DecimalText α]

def required (node : Node) (field : String) : Except (DocumentError α) Node :=
  match node.field? field with
  | some value => .ok value
  | none => .error (.missing field)

/-- The number in a field. -/
def asNumber (field : String) (value : Node) : Except (DocumentError α) α :=
  match value.number? with
  | some number => .ok (DecimalText.ofWritten number)
  | none => .error (.notNumber field)

def number (node : Node) (field : String) : Except (DocumentError α) α := do
  asNumber field (← node.required field)

def numberD (node : Node) (field : String) (default : α) : Except (DocumentError α) α :=
  match node.field? field with
  | some value => asNumber field value
  | none => .ok default

def asList (field : String) (value : Node) : Except (DocumentError α) (List Node) :=
  match value.list? with
  | some items => .ok items
  | none => .error (.notList field)

def items (node : Node) (field : String) : Except (DocumentError α) (List Node) := do
  asList field (← node.required field)

def stringD (node : Node) (field default : String) : String :=
  (node.get field).string?.getD default

end Yaml.Node

open Yaml

variable {α : Type} [Scalar α] [DecimalText α]

def Pose.ofNode (field : String) (node : Node) : Except (DocumentError α) (Pose α) := do
  match ← node.asList field with
  | [x, y, z, roll, pitch, yaw] =>
    return .ofXyzRpy (← x.asNumber field) (← y.asNumber field) (← z.asNumber field)
      (← roll.asNumber field) (← pitch.asNumber field) (← yaw.asNumber field)
  | items => throw (.poseLength items.length)

/-- The pose in a field, the identity where none is given. -/
def Pose.ofField (field : String) (node : Node) : Except (DocumentError α) (Pose α) :=
  match node.field? field with
  | some value => Pose.ofNode field value
  | none => .ok 1

/-- A joint with its range and its speed, in degrees for revolute axes. Prismatic axes have neither
length nor offset. -/
def Joint.ofNode (kind : JointKind) (node : Node) : Except (DocumentError α) (Joint α) := do
  let low ← node.number "min"
  let high ← node.number "max"
  let maxSpeed ← node.number "max_speed"
  if high < low then throw (.emptyRange low high)
  match kind with
  | .revolute =>
    return .revoluteDegrees (← node.numberD "a" 0) (← node.numberD "d" 0) low high maxSpeed
  | .prismatic => return .prismatic low high maxSpeed

/-- The joints of a node, each of the kind that it names itself. -/
def Joint.listOf (kind : Node → JointKind) (node : Node) :
    Except (DocumentError α) (List (Joint α)) := do
  (← node.items "joints").mapM fun joint ↦ Joint.ofNode (kind joint) joint

def Manufacturer.ofNode (node : Node) : Except (DocumentError α) Manufacturer :=
  match (node.get "manufacturer").string? with
  | none => .ok .other
  | some name => match Manufacturer.ofText? name with
    | some manufacturer => .ok manufacturer
    | none => .error (.unknownManufacturer name)

def Topology.ofNode (node : Node) : Except (DocumentError α) Topology :=
  match node.stringD "topology" "spherical_wrist" with
  | "spherical_wrist" => .ok .sphericalWrist
  | "offset_wrist" => .ok .offsetWrist
  | "redundant" => .ok .redundant
  | name => .error (.unknownTopology name)

def Arm.ofNode (node : Node) : Except (DocumentError α) (Arm α) := do
  let manufacturer ← Manufacturer.ofNode node
  let topology ← Topology.ofNode node
  let joints ← Joint.listOf (fun _ ↦ .revolute) node
  let base ← Pose.ofField "base" node
  let payload ← node.numberD "payload" 0
  (Arm.build (node.stringD "name" "Robot") manufacturer topology joints base payload).mapError
    .mechanism

/-- The poses of the axes of a mechanism. -/
def Mechanism.axesOf (node : Node) : Except (DocumentError α) (List (Pose α)) := do
  (← node.items "axes").mapM (Pose.ofNode "axes")

/-- The kind of a joint in a custom mechanism, revolute where none is named. -/
def JointKind.ofNode (node : Node) : JointKind :=
  if node.stringD "kind" "revolute" = "prismatic" then .prismatic else .revolute

def Mechanism.ofNode (node : Node) : Except (DocumentError α) (Mechanism α) := do
  let some type := (node.get "type").string? | throw (.missing "type")
  let name := node.stringD "name" type
  let base ← Pose.ofField "base" node
  let movesRobot := (node.get "moves_robot").bool?.getD false
  match type with
  | "track" =>
    let joints ← Joint.listOf (fun _ ↦ .prismatic) node
    (Mechanism.buildTrack name joints base movesRobot).mapError .mechanism
  | "positioner" =>
    let joints ← Joint.listOf (fun _ ↦ .revolute) node
    let axes ← Mechanism.axesOf node
    (Mechanism.buildPositioner name joints axes base movesRobot).mapError .mechanism
  | "custom" =>
    let joints ← Joint.listOf JointKind.ofNode node
    let axes ← Mechanism.axesOf node
    (Mechanism.buildCustom name joints axes base movesRobot).mapError .mechanism
  | _ => throw (.unknownMechanism type)

def Group.ofNode (node : Node) : Except (DocumentError α) (Group α) := do
  let arm ← Arm.ofNode (← node.required "arm")
  let externals ← match node.field? "externals" with
    | some value => (← value.asList "externals").mapM Mechanism.ofNode
    | none => pure []
  return ⟨arm, externals⟩

namespace Cell

def ofNode (node : Node) : Except (DocumentError α) (Cell α) := do
  let base ← Pose.ofField "base" node
  let groups ← (← node.items "groups").mapM Group.ofNode
  if groups.isEmpty then throw .noGroups
  return ⟨node.stringD "name" "Cell", base, groups⟩

/-- The cell that the first document of a text describes. -/
def ofYaml (text : String) : Except (DocumentError α) (Cell α) :=
  match Node.documents? text with
  | none => .error .notYaml
  | some [] => .error .noDocument
  | some (document :: _) => ofNode document

end Cell

end Toolpath
