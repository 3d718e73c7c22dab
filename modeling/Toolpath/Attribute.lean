import Toolpath.Geometry.Pose

/-!
What a target refers to besides its position: tools, frames, speeds and zones. Many targets share
one instance, and the key of its label says which one it is: two labels with the same key belong to
the same instance, whatever their names. An instance without a name has the empty name until a
program gives it one.
-/

set_option autoImplicit false
set_option relaxedAutoImplicit false

namespace Toolpath

/-- Identifies one shared instance among those of its kind. -/
inductive Key where
  /-- The instance that targets have by default. -/
  | builtin
  | authored (number : Nat)
  deriving DecidableEq, Repr

structure Label where
  key : Key
  name : String
  deriving DecidableEq, Repr

structure Tool (α : Type) where
  label : Label
  /-- The tool centre point relative to the flange. -/
  tcp : Pose α
  /-- In kilograms. -/
  weight : α

/-- The coordinates that a target is written in. A frame coupled to a group follows the tool centre
point of that group, or the last axis of one of its mechanisms. -/
structure Frame (α : Type) where
  label : Label
  pose : Pose α
  coupledGroup : Option Nat
  coupledMechanism : Option Nat

structure Speed (α : Type) where
  label : Label
  /-- Of the tool centre point, in millimetres per second. -/
  translation : α
  /-- Of the tool centre point, in radians per second. -/
  rotation : α
  /-- The cap of linear external axes, in millimetres per second. -/
  translationExternal : α
  /-- The cap of rotary external axes, in radians per second. -/
  rotationExternal : α
  /-- How long the motion takes, in seconds. Replaces the speeds of the tool centre point where
  positive. -/
  time : α

/-- How far from a target the path may start to bend towards the next one. -/
structure Zone (α : Type) where
  label : Label
  /-- In millimetres. -/
  distance : α
  /-- In radians. -/
  rotation : α

namespace Label

def rename (label : Label) (name : String) : Label :=
  { label with name }

end Label

variable {α : Type} [Scalar α]

namespace Tool

def default : Tool α :=
  ⟨⟨.builtin, "DefaultTool"⟩, 1, 0⟩

end Tool

namespace Frame

def default : Frame α :=
  ⟨⟨.builtin, "DefaultFrame"⟩, 1, none, none⟩

def isCoupled (frame : Frame α) : Bool :=
  frame.coupledGroup.isSome

end Frame

namespace Speed

/-- A speed of the tool centre point; rotation at a quarter turn per second, external axes at 1000
millimetres and a quarter turn per second. -/
def ofTranslation (label : Label) (translation : α) : Speed α :=
  ⟨label, translation, Scalar.quarterTurn, 1000.0, Scalar.quarterTurn, 0⟩

/-- A motion that takes the given time unless an axis is slower. The translation has no cap. -/
def timed (label : Label) (time : α) : Speed α :=
  { ofTranslation label (1 / 0) with time }

def default : Speed α :=
  ofTranslation ⟨.builtin, "DefaultSpeed"⟩ 100.0

end Speed

namespace Zone

def ofDistance (label : Label) (distance : α) : Zone α :=
  ⟨label, distance, distance / 10.0⟩

def default : Zone α :=
  ⟨⟨.builtin, "DefaultZone"⟩, 0, 0⟩

/-- Whether the path passes by the target instead of stopping there. -/
def isFlyBy (zone : Zone α) : Bool :=
  0 < zone.distance || 0 < zone.rotation

end Zone

end Toolpath
