import Toolpath.Arm.Solver
import Toolpath.Decimal.Written

/-!
Structural errors: a cell or a program that is not well formed, whatever its geometry. Faults of
single targets are not reported here; they travel with the solutions.
-/

set_option autoImplicit false
set_option relaxedAutoImplicit false

namespace Toolpath

/-- Why a mechanism or an arm cannot be built. -/
inductive MechanismError where
  | armAxisCount (topology : Topology) (given : Nat)
  | trackAxisCount (name : String) (given : Nat)
  | trackAxisKind (name : String)
  | positionerAxes (name : String) (joints axes : Nat)
  | positionerAxisKind (name : String)
  | chainAxes (name : String) (joints axes : Nat)
  deriving DecidableEq, Repr

/-- Why the frame of a target cannot be placed. -/
inductive CouplingError where
  | mechanismWithoutGroup (frame : String)
  | unknownGroup (frame : String) (group groupCount : Nat)
  | unknownMechanism (frame : String) (mechanism group mechanismCount : Nat)
  /-- A frame on the tool centre point of the group that moves in it. -/
  | ownTool (frame : String) (group : Nat)
  /-- The groups wait for each other. -/
  | loop
  deriving DecidableEq, Repr

inductive StructureError (α : Type) where
  | emptyProgram
  | groupCount (expected found : Nat)
  | toolpathLength (group expected found : Nat)
  | stepSize (given : α)
  | coupling (error : CouplingError)
  | mechanism (error : MechanismError)
  | targetCount (expected found : Nat)
  deriving DecidableEq, Repr

namespace MechanismError

/-- How many joints and axis poses were given. -/
def axesGiven (joints axes : Nat) : String :=
  " needs one axis pose per joint, " ++ toString joints ++ " joints and " ++ toString axes ++
    " axes given"

def message : MechanismError → String
  | armAxisCount topology given =>
    topology.toText ++ " arm needs " ++ toString topology.axisCount ++ " joints, " ++
      toString given ++ " given"
  | trackAxisCount name given =>
    "track " ++ name ++ " must have 1 to 3 axes, " ++ toString given ++ " given"
  | trackAxisKind name => "track " ++ name ++ " may only have prismatic axes"
  | positionerAxes name joints axes => "positioner " ++ name ++ axesGiven joints axes
  | positionerAxisKind name => "positioner " ++ name ++ " may only have revolute axes"
  | chainAxes name joints axes => "mechanism " ++ name ++ axesGiven joints axes

end MechanismError

namespace CouplingError

def message : CouplingError → String
  | mechanismWithoutGroup frame =>
    "frame " ++ frame ++ " is coupled to a mechanism but not to a group"
  | unknownGroup frame group groupCount =>
    "frame " ++ frame ++ " is coupled to group " ++ toString group ++ " but the cell has " ++
      toString groupCount ++ " groups"
  | unknownMechanism frame mechanism group mechanismCount =>
    "frame " ++ frame ++ " is coupled to mechanism " ++ toString mechanism ++ " of group " ++
      toString group ++ " that has " ++ toString mechanismCount ++ " mechanisms"
  | ownTool frame group =>
    "frame " ++ frame ++ " of group " ++ toString group ++
      " is coupled to the tool of its own group"
  | loop => "frames of the groups are coupled to each other in a loop"

end CouplingError

namespace StructureError

def message {α : Type} [DecimalText α] : StructureError α → String
  | emptyProgram => "The program has no targets"
  | groupCount expected found =>
    "The robot system has " ++ toString expected ++ " mechanical groups but " ++ toString found ++
      " toolpaths were given"
  | toolpathLength group expected found =>
    "Toolpath of group " ++ toString group ++ " has " ++ toString found ++ " targets, expected " ++
      toString expected ++ " as in the first toolpath"
  | stepSize given => "Step size must be positive, " ++ DecimalText.shortest given ++ " given"
  | coupling error => "Frame coupling error: " ++ error.message
  | mechanism error => "Invalid mechanism: " ++ error.message
  | targetCount expected found =>
    "Expected one target per mechanical group (" ++ toString expected ++ "), found " ++
      toString found

end StructureError

end Toolpath
