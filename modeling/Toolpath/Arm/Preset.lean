import Toolpath.Arm.Basic

/-!
The parameters of a few robot arms. Ranges are those of the angles that the solvers use, not of the
angles that the controllers show.
-/

set_option autoImplicit false
set_option relaxedAutoImplicit false

namespace Toolpath.Arm

variable {α : Type} [Scalar α]

def preset (name : String) (manufacturer : Manufacturer) (topology : Topology)
    (joints : List (Joint α)) (payload : α) : Arm α :=
  ⟨name, manufacturer, solverFor topology joints, joints, 1, payload⟩

def irb4600 : Arm α :=
  preset "IRB4600-40" .abb .sphericalWrist
    [.revoluteDegrees 175.0 495.0 (-180.0) 180.0 175.0,
      .revoluteDegrees 1095.0 0.0 (-90.0) 180.0 175.0,
      .revoluteDegrees 175.0 0.0 (-180.0) 180.0 175.0,
      .revoluteDegrees 0.0 1270.0 (-400.0) 400.0 250.0,
      .revoluteDegrees 0.0 0.0 (-125.0) 125.0 250.0,
      .revoluteDegrees 0.0 135.0 (-400.0) 400.0 360.0]
    40.0

def irb120 : Arm α :=
  preset "IRB120" .abb .sphericalWrist
    [.revoluteDegrees 0.0 290.0 (-165.0) 165.0 250.0,
      .revoluteDegrees 270.0 0.0 (-30.0) 210.0 250.0,
      .revoluteDegrees 70.0 0.0 (-180.0) 180.0 250.0,
      .revoluteDegrees 0.0 302.0 (-160.0) 160.0 320.0,
      .revoluteDegrees 0.0 0.0 (-120.0) 120.0 320.0,
      .revoluteDegrees 0.0 72.0 (-400.0) 400.0 420.0]
    3.0

def ur5e : Arm α :=
  preset "UR5e" .ur .offsetWrist
    [.revoluteDegrees 0.0 162.5 (-360.0) 360.0 180.0,
      .revoluteDegrees (-425.0) 0.0 (-360.0) 360.0 180.0,
      .revoluteDegrees (-392.2) 0.0 (-360.0) 360.0 180.0,
      .revoluteDegrees 0.0 133.3 (-360.0) 360.0 180.0,
      .revoluteDegrees 0.0 99.7 (-360.0) 360.0 180.0,
      .revoluteDegrees 0.0 99.6 (-360.0) 360.0 180.0]
    5.0

def ur10e : Arm α :=
  preset "UR10e" .ur .offsetWrist
    [.revoluteDegrees 0.0 180.7 (-360.0) 360.0 120.0,
      .revoluteDegrees (-612.7) 0.0 (-360.0) 360.0 120.0,
      .revoluteDegrees (-571.55) 0.0 (-360.0) 360.0 180.0,
      .revoluteDegrees 0.0 174.15 (-360.0) 360.0 180.0,
      .revoluteDegrees 0.0 119.85 (-360.0) 360.0 180.0,
      .revoluteDegrees 0.0 116.55 (-360.0) 360.0 180.0]
    12.5

def iiwa7 : Arm α :=
  preset "LBR iiwa 7 R800" .kuka .redundant
    [.revoluteDegrees 0.0 340.0 (-170.0) 170.0 98.0,
      .revoluteDegrees 0.0 0.0 (-120.0) 120.0 98.0,
      .revoluteDegrees 0.0 400.0 (-170.0) 170.0 100.0,
      .revoluteDegrees 0.0 0.0 (-120.0) 120.0 130.0,
      .revoluteDegrees 0.0 400.0 (-170.0) 170.0 140.0,
      .revoluteDegrees 0.0 0.0 (-120.0) 120.0 180.0,
      .revoluteDegrees 0.0 126.0 (-175.0) 175.0 180.0]
    7.0

end Toolpath.Arm
