import Toolpath.Mechanism

/-!
The parameters of a few external mechanisms.
-/

set_option autoImplicit false
set_option relaxedAutoImplicit false

namespace Toolpath.Mechanism

variable {α : Type} [Scalar α]

/-- A floor track along the X axis that carries the arm. -/
def floorTrack (name : String) (length maxSpeed : α) : Mechanism α :=
  ⟨name, [.prismatic 0 length maxSpeed], 1, true, .track⟩

/-- A turntable about the vertical axis with its plate at the given height. -/
def turntable (name : String) (base : Pose α) (height : α) : Mechanism α :=
  ⟨name, [.revoluteDegrees 0 0 (-360.0) 360.0 120.0], base, false,
    .positioner [.translation 0 0 height]⟩

/-- A tilt about the X axis followed by the rotation of the table. -/
def tiltTable (name : String) (base : Pose α) (height : α) : Mechanism α :=
  ⟨name,
    [.revoluteDegrees 0 0 (-135.0) 135.0 90.0, .revoluteDegrees 0 0 (-360.0) 360.0 120.0],
    base, false,
    .positioner [⟨⟨0, 0, height⟩, .aboutY Scalar.quarterTurn⟩,
      .ofRotation (.aboutY (-Scalar.quarterTurn))]⟩

end Toolpath.Mechanism
