import Toolpath.Command
import Toolpath.Configuration

/-!
Targets: where one group of a cell is to move, and how. A Cartesian goal is a pose of the tool
centre point in the frame of the target, reached on a straight line or by interpolating the joints;
a joint goal gives the arm axes themselves. Without a forced configuration the branch nearest to
the previous position is taken.
-/

set_option autoImplicit false
set_option relaxedAutoImplicit false

namespace Toolpath

inductive Motion where
  | joint
  | linear
  deriving DecidableEq, Repr

inductive Goal (α : Type) where
  | cartesian (pose : Pose α) (configuration : Option Configuration) (motion : Motion)
  | joints (values : List α)

structure Target (α : Type) where
  goal : Goal α
  tool : Tool α
  frame : Frame α
  speed : Speed α
  zone : Zone α
  command : Option (Command α)
  /-- The values of the external axes of the group, in the order of its mechanisms. -/
  external : List α

namespace Target

variable {α : Type}

/-- A target with default attributes, no command and no external values. -/
def ofGoal [Scalar α] (goal : Goal α) : Target α :=
  ⟨goal, .default, .default, .default, .default, none, []⟩

def withExternal (target : Target α) (external : List α) : Target α :=
  { target with external }

/-- The target with another forced configuration; a joint target stays as it is. -/
def withConfiguration (target : Target α) (configuration : Option Configuration) : Target α :=
  match target.goal with
  | .cartesian pose _ motion => { target with goal := .cartesian pose configuration motion }
  | .joints _ => target

/-- A joint target with the same attributes. -/
def toJoints (target : Target α) (values : List α) : Target α :=
  { target with goal := .joints values }

def isLinear (target : Target α) : Bool :=
  match target.goal with
  | .cartesian _ _ .linear => true
  | _ => false

def isCartesian (target : Target α) : Bool :=
  match target.goal with
  | .cartesian _ _ _ => true
  | .joints _ => false

def configuration? (target : Target α) : Option Configuration :=
  match target.goal with
  | .cartesian _ configuration _ => configuration
  | .joints _ => none

/-- The instructions on the target in the order of execution. -/
def instructions (target : Target α) : List (Instruction α) :=
  (target.command.map Command.flatten).getD []

end Target

end Toolpath
