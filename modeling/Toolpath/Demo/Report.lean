import Toolpath.Playback
import Toolpath.Program.Code
import Toolpath.Readout

/-!
What the demo tells about a program: its attributes, its diagnostics, the code of its commands, and
where the tools stand at moments spread evenly over the playback.
-/

set_option autoImplicit false
set_option relaxedAutoImplicit false

namespace Toolpath.Demo

variable {α : Type} [Scalar α] [DecimalText α]

def heading (program : Program α) : String :=
  "Program " ++ program.name ++ ": " ++ toString program.targets.length ++ " targets, " ++
    toString program.keyframes.length ++ " keyframes, " ++
    DecimalText.fixed 3 program.duration ++ " s"

def startLines (program : Program α) : List String :=
  ((program.targets.head?.map Step.waypoints).getD []).zipIdx.map fun (waypoint, group) ↦
    "Start of robot " ++ toString group ++ ": " ++ waypoint.worldPlane.toText

def warningLine (message : String) : String :=
  "Warning: " ++ message

def errorLine (message : String) : String :=
  "Error: " ++ message

/-- The code of the commands of one target on one line, none where there is no code. -/
def codeLine? (code : TargetCode) : Option String :=
  match code.before ++ code.after with
  | [] => none
  | lines => some ("Target " ++ toString code.index ++ " of robot " ++ toString code.group ++
      ": " ++ " ".intercalate lines)

def programLines (program : Program α) : List String :=
  let code := program.commandsCode .standard
  [heading program] ++ program.attributes.map (fun entry ↦ "  " ++ entry.toText) ++
    startLines program ++ program.warnings.map (fun warning ↦ warningLine warning.message) ++
    program.faults.map (fun fault ↦ errorLine fault.message) ++
    code.targets.filterMap codeLine? ++
    code.missing.map (fun missing ↦ warningLine missing.message)

def positionText (position : Vec3 α) : String :=
  "[" ++ ", ".intercalate ([position.x, position.y, position.z].map (DecimalText.fixed 1)) ++ "]"

/-- Two lines per group. -/
def snapshotLines (shown : Snapshot α) : List String :=
  shown.solutions.zipIdx.flatMap fun (solution, group) ↦
    ["t = " ++ DecimalText.fixed 3 shown.time ++ " s, target " ++ toString shown.targetIndex ++
        ", robot " ++ toString group ++ ": TCP " ++ positionText solution.tcp.position ++
        ", configuration " ++ solution.configuration.toText,
      jointsText solution.joints]

/-- The lines of the given shares of the duration, up to one that cannot be shown. -/
def playbackLines (program : Program α) :
    Playback α → List α → List String × Option (StructureError α)
  | _, [] => ([], none)
  | playback, share :: shares =>
    match playback.animate program share true with
    | (_, .error error) => ([], some error)
    | (playback, .ok shown) =>
      let (lines, error) := playbackLines program playback shares
      (snapshotLines shown ++ lines, error)

/-- At least two moments, from the start to the end of the playback. -/
def sampleShares (samples : Nat) : List α :=
  let count := max samples 2
  (List.range count).map fun place : Nat ↦ (place : α) / ((count - 1 : Nat) : α)

end Toolpath.Demo
