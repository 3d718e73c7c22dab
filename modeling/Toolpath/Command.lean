import Toolpath.Attribute
import Toolpath.Dialect

/-!
Commands run before or after the motion to a target. An instruction does one thing; a command is an
instruction or a group of commands, and `flatten` lists its instructions in the order of execution.
-/

set_option autoImplicit false
set_option relaxedAutoImplicit false

namespace Toolpath

inductive Action (α : Type) where
  /-- Dwell for a number of seconds. -/
  | wait (seconds : α)
  | setDigital (output : String) (value : Bool)
  | setAnalog (output : String) (value : α)
  | message (text : String)
  | stop
  /-- Code given word by word for some of the manufacturers. -/
  | custom (code : List (Manufacturer × String))

structure Instruction (α : Type) where
  label : Label
  runsBefore : Bool
  action : Action α

inductive Command (α : Type) where
  | single (instruction : Instruction α)
  | group (label : Label) (runsBefore : Bool) (members : List (Command α))

namespace Action

variable {α : Type}

def typeName : Action α → String
  | wait _ => "Wait"
  | setDigital _ _ => "SetDO"
  | setAnalog _ _ => "SetAO"
  | message _ => "Message"
  | stop => "Stop"
  | custom _ => "Custom"

end Action

namespace Instruction

variable {α : Type}

def typeName (instruction : Instruction α) : String :=
  instruction.action.typeName

def waitSeconds? (instruction : Instruction α) : Option α :=
  match instruction.action with
  | .wait seconds => some seconds
  | _ => none

end Instruction

namespace Command

variable {α : Type}

def label : Command α → Label
  | single instruction => instruction.label
  | group label _ _ => label

def runsBefore : Command α → Bool
  | single instruction => instruction.runsBefore
  | group _ runsBefore _ => runsBefore

def typeName : Command α → String
  | single instruction => instruction.typeName
  | group _ _ _ => "Group"

def waitSeconds? : Command α → Option α
  | single instruction => instruction.waitSeconds?
  | group _ _ _ => none

/-- The direct members of a group. -/
def members? : Command α → Option (List (Command α))
  | single _ => none
  | group _ _ members => some members

mutual

/-- The instructions in the order of execution, groups being expanded. -/
def flatten : Command α → List (Instruction α)
  | single instruction => [instruction]
  | group _ _ members => flattenAll members

def flattenAll : List (Command α) → List (Instruction α)
  | [] => []
  | command :: rest => flatten command ++ flattenAll rest

end

mutual

/-- The command and everything inside it, a group before its members. -/
def nested : Command α → List (Command α)
  | single instruction => [single instruction]
  | group label runsBefore members => group label runsBefore members :: nestedAll members

def nestedAll : List (Command α) → List (Command α)
  | [] => []
  | command :: rest => nested command ++ nestedAll rest

end

mutual

/-- The command with the label of everything inside it changed. -/
def mapLabels (change : Label → Label) : Command α → Command α
  | single instruction => single { instruction with label := change instruction.label }
  | group label runsBefore members => group (change label) runsBefore (mapLabelsAll change members)

def mapLabelsAll (change : Label → Label) : List (Command α) → List (Command α)
  | [] => []
  | command :: rest => mapLabels change command :: mapLabelsAll change rest

end

end Command

end Toolpath
