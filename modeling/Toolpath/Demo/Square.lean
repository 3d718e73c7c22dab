import Toolpath.Arm.Preset
import Toolpath.Cell.Coupling
import Toolpath.Mechanism.Preset

/-!
The program of the demo: every group starts at the same axis values and then draws a square in a
frame where its tool stands at the start. At each corner it waits and sets an output.
-/

set_option autoImplicit false
set_option relaxedAutoImplicit false

namespace Toolpath.Demo

variable {α : Type} [Scalar α]

/-- A preset arm and its start, by the name of the arm in any case. -/
def preset? (name : String) : Option (Arm α × List α) :=
  match name with
  | "irb4600" => some (.irb4600, [0, 1.2, -0.4, 0, 0.9, 0])
  | "irb120" => some (.irb120, [0, 1.2, -0.4, 0, 0.9, 0])
  | "ur5e" => some (.ur5e, [0, -1.2, 1.5, -1.9, -1.5, 0])
  | "ur10e" => some (.ur10e, [0, -1.2, 1.5, -1.9, -1.5, 0])
  | "iiwa7" => some (.iiwa7, [0, 0.6, 0, -1.4, 0, 0.9, 0])
  | _ => none

/-- A cell with one arm, on a floor track and next to a turntable if wanted. -/
def presetCell (arm : Arm α) (track turntable : Bool) : Cell α :=
  let tracks := if track then [.floorTrack "Track" 4000.0 1000.0] else []
  let tables :=
    if turntable then [.turntable "Turntable" (.translation 1500.0 1000.0 0) 600.0] else []
  ⟨"Cell", 1, [⟨arm, tracks ++ tables⟩]⟩

def pen : Tool α :=
  ⟨⟨.authored 0, "Pen"⟩, 1, 1⟩

def drawSpeed : Speed α :=
  .ofTranslation ⟨.authored 0, "Draw"⟩ 150.0

def blend : Zone α :=
  .ofDistance ⟨.authored 0, "Blend"⟩ 1

/-- What happens at a corner of the square. -/
def corner : Command α :=
  .group ⟨.authored 2, "Corner"⟩ false
    [.single ⟨⟨.authored 0, ""⟩, false, .wait 0.2⟩,
      .single ⟨⟨.authored 1, "PenDown"⟩, false, .setDigital "DO_Pen" true⟩]

def start (group : Group α) (home : List α) : Target α :=
  { Target.ofGoal (.joints home) with
    tool := pen
    speed := drawSpeed
    external := List.replicate group.externalCount 0 }

/-- The frame of a group where its tool stands at the start. -/
def paper (group : Nat) (pose : Pose α) : Frame α :=
  ⟨⟨.authored group, "Paper" ++ toString group⟩, pose, none, none⟩

/-- The start and then the corners of the square, drawn on straight lines. -/
def toolpath (start : Target α) (size : α) : List (Target α) :=
  start :: [(size, 0), (size, size), (0, size), (0, 0)].map fun (x, y) ↦
    { start with
      goal := .cartesian (.translation x y 0) none .linear
      zone := blend
      command := some corner }

/-- Why the demo has no program. -/
inductive Problem (α : Type) where
  | start (group : Nat) (fault : Fault)
  | program (error : StructureError α)

/-- The toolpaths of all groups. A group that does not reach its start has none. -/
def toolpaths (cell : Cell α) (home : List α) (size : α) :
    Except (Problem α) (List (List (Target α))) := do
  let starts := cell.groups.map fun group ↦ start group home
  let solutions ← (cell.solve starts none).mapError .program
  (starts.zip solutions).zipIdx.mapM fun ((start, solution), group) ↦
    match solution.faults with
    | fault :: _ => .error (.start group fault)
    | [] => .ok (toolpath { start with frame := paper group solution.tcp } size)

end Toolpath.Demo
