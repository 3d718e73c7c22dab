import Toolpath.Distinct
import Toolpath.Target

/-!
Attributes of all kinds as one type, so that a program can list them and give them names. A target
lists its tool, frame, speed and zone, then its command with everything nested in it, a group
before its members.
-/

set_option autoImplicit false
set_option relaxedAutoImplicit false

namespace Toolpath

inductive AttributeKind where
  | tool
  | frame
  | speed
  | zone
  | command
  deriving DecidableEq, Repr

/-- Identifies one attribute instance among those of all kinds. -/
abbrev AttributeId := AttributeKind × Key

inductive Attribute (α : Type) where
  | tool (tool : Tool α)
  | frame (frame : Frame α)
  | speed (speed : Speed α)
  | zone (zone : Zone α)
  | command (command : Command α)

/-- The new labels of attributes, by kind. -/
abbrev Relabelling := AttributeKind → Label → Label

variable {α : Type}

namespace Attribute

def kind : Attribute α → AttributeKind
  | tool _ => .tool
  | frame _ => .frame
  | speed _ => .speed
  | zone _ => .zone
  | command _ => .command

def label : Attribute α → Label
  | tool t => t.label
  | frame f => f.label
  | speed s => s.label
  | zone z => z.label
  | command c => c.label

def name (entry : Attribute α) : String :=
  entry.label.name

def id (entry : Attribute α) : AttributeId :=
  (entry.kind, entry.label.key)

/-- What the attribute is, also the stem of generated names. -/
def typeName : Attribute α → String
  | tool _ => "Tool"
  | frame _ => "Frame"
  | speed _ => "Speed"
  | zone _ => "Zone"
  | command c => c.typeName

def toText (entry : Attribute α) : String :=
  entry.typeName ++ " " ++ entry.name

/-- The attribute with new labels, also inside a command. -/
def relabel (change : Relabelling) : Attribute α → Attribute α
  | tool t => tool { t with label := change .tool t.label }
  | frame f => frame { f with label := change .frame f.label }
  | speed s => speed { s with label := change .speed s.label }
  | zone z => zone { z with label := change .zone z.label }
  | command c => command (c.mapLabels (change .command))

end Attribute

namespace Target

/-- The attributes of the target in the order of their listing, nested commands included. -/
def attributes (target : Target α) : List (Attribute α) :=
  [.tool target.tool, .frame target.frame, .speed target.speed, .zone target.zone] ++
    ((target.command.map Command.nested).getD []).map .command

def relabel (change : Relabelling) (target : Target α) : Target α :=
  { target with
    tool := { target.tool with label := change .tool target.tool.label }
    frame := { target.frame with label := change .frame target.frame.label }
    speed := { target.speed with label := change .speed target.speed.label }
    zone := { target.zone with label := change .zone target.zone.label }
    command := target.command.map (Command.mapLabels (change .command)) }

end Target

end Toolpath
