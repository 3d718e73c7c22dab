import Toolpath.Program.Step

/-!
What the compilation of a program has to say. A warning lets the program stand; a fault cuts it off
after the target that it names. Groups are counted from zero.
-/

set_option autoImplicit false
set_option relaxedAutoImplicit false

namespace Toolpath

inductive Warning (α : Type) where
  /-- External values of so many targets did not fit the mechanisms. -/
  | externalsResized (count : Nat)
  | firstTargetToJoints (group : Nat)
  | defaultTool (name : String)
  | defaultSpeed (name : String) (translation : α)
  | configurationIgnored (target group : Nat)
  | renamed (typeName name newName : String)
  | overweight (tool : String) (weight : α) (group : Nat) (payload : α)
  | configurationChange (target group : Nat) (before after : Configuration)
  | noMotion (target group : Nat)
  | speedLimited (target group : Nat) (limits : List SpeedLimit)

inductive ProgramFault where
  | solver (target group : Nat) (fault : Fault)
  /-- A linear motion has no configuration to keep. -/
  | undefinedStart (target group : Nat)
  deriving DecidableEq, Repr

namespace Warning

def ofTarget (target group : Nat) : String :=
  "Target " ++ toString target ++ " of robot " ++ toString group

def message {α : Type} [DecimalText α] : Warning α → String
  | externalsResized count =>
    "External axis values of " ++ toString count ++ " targets did not match the number of " ++
      "external axes of their robot and have been resized."
  | firstTargetToJoints group =>
    "First target of robot " ++ toString group ++ " has been changed to a joint target."
  | defaultTool name =>
    "Some targets have no tool set, the " ++ name ++ " with its TCP at the flange is used."
  | defaultSpeed name translation =>
    "Some targets have no speed set, the " ++ name ++ " of " ++
      DecimalText.shortest translation ++ " mm/s is used."
  | configurationIgnored target group =>
    ofTarget target group ++ ": configuration is ignored for linear motions."
  | renamed typeName name newName =>
    typeName ++ " name " ++ name ++ " is used by more than one instance, renamed to " ++ newName ++
      "."
  | overweight tool weight group payload =>
    "Weight of tool " ++ tool ++ " (" ++ DecimalText.shortest weight ++
      " kg) exceeds the payload of robot " ++ toString group ++ " (" ++
      DecimalText.shortest payload ++ " kg)."
  | configurationChange target group before after =>
    ofTarget target group ++ " changes configuration from " ++ before.toText ++ " to " ++
      after.toText ++ "."
  | noMotion target group =>
    ofTarget target group ++ " does not change position or orientation."
  | speedLimited target group limits =>
    ofTarget target group ++ ": motion is limited by " ++
      ", ".intercalate (limits.map SpeedLimit.toText) ++ "."

end Warning

namespace ProgramFault

def target : ProgramFault → Nat
  | solver target _ _ => target
  | undefinedStart target _ => target

def group : ProgramFault → Nat
  | solver _ group _ => group
  | undefinedStart _ group => group

def cause : ProgramFault → String
  | solver _ _ fault => fault.message
  | undefinedStart _ _ =>
    "linear motion starts from a target with an undefined configuration (near a singularity)."

def message (fault : ProgramFault) : String :=
  "Errors in target " ++ toString fault.target ++ " of robot " ++ toString fault.group ++ ": " ++
    fault.cause

/-- The solver faults of a step as faults of the program. -/
def ofStep {α : Type} (step : Step α) : List ProgramFault :=
  step.faults.map fun (group, fault) ↦ solver step.index group fault

end ProgramFault

end Toolpath
