import Toolpath.Command.Code
import Toolpath.Distinct
import Toolpath.Program.Basic

/-!
The code of the commands on every target, in the dialect of the arm that moves there. An instruction
that a dialect has no word for is skipped, and reported once for each name and manufacturer.
-/

set_option autoImplicit false
set_option relaxedAutoImplicit false

namespace Toolpath

structure TargetCode where
  index : Nat
  group : Nat
  before : List String
  after : List String
  deriving DecidableEq, Repr

/-- An instruction without a word in the dialect of a manufacturer. -/
structure MissingCode where
  typeName : String
  name : String
  manufacturer : Manufacturer
  deriving DecidableEq, Repr

structure CommandsCode where
  targets : List TargetCode
  missing : List MissingCode
  deriving DecidableEq, Repr

def MissingCode.message (missing : MissingCode) : String :=
  missing.typeName ++ " " ++ missing.name ++
    ": command not implemented for this manufacturer (" ++ missing.manufacturer.toText ++
    "), it has been skipped."

variable {α : Type} [DecimalText α]

namespace Waypoint

/-- The code lines of the instructions before or after the motion. -/
def codeLines (waypoint : Waypoint α) (format : NumberFormat) (maker : Manufacturer)
    (before : Bool) : List String :=
  (waypoint.target.instructions.filter (·.runsBefore == before)).filterMap (·.code? format maker)

def missingCode (waypoint : Waypoint α) (format : NumberFormat) (maker : Manufacturer) :
    List MissingCode :=
  (waypoint.target.instructions.filter fun i ↦ (i.code? format maker).isNone).map fun i ↦
    ⟨i.typeName, i.label.name, maker⟩

end Waypoint

namespace Program

/-- Every waypoint of the program with its step, its group and the manufacturer of the arm. -/
def codedWaypoints (program : Program α) : List (Nat × Nat × Manufacturer × Waypoint α) :=
  program.targets.flatMap fun step ↦
    (step.waypoints.zip program.cell.groups).zipIdx.map fun ((waypoint, group), place) ↦
      (step.index, place, group.arm.manufacturer, waypoint)

def commandsCode (program : Program α) (format : NumberFormat) : CommandsCode where
  targets := program.codedWaypoints.map fun (index, group, maker, waypoint) ↦
    ⟨index, group, waypoint.codeLines format maker true, waypoint.codeLines format maker false⟩
  missing := distinctBy (fun m ↦ (m.name, m.manufacturer))
    (program.codedWaypoints.flatMap fun (_, _, maker, waypoint) ↦
      waypoint.missingCode format maker)

end Program

end Toolpath
