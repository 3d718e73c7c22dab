import Toolpath.Program.Report
import Toolpath.Program.Timing

/-!
The motion from one target to the next. The end is solved first, a linear motion keeping the
configuration that it starts from. Then the motion is solved in substeps of equal share, as many as
the longest linear path needs, each from the axis values of the substep before and as long as the
slowest group takes.

Keyframes are the substeps where the duration changes, and the last one; with an arm of more than
six axes every substep is one. A fault stops the motion: the keyframes before it stay, and the
target is kept as it was solved.
-/

set_option autoImplicit false
set_option relaxedAutoImplicit false

namespace Toolpath

/-- One solved substep of a motion. -/
structure Substep (α : Type) where
  step : Step α
  paces : List (Pace α)
  duration : α

/-- The outcome of one motion. -/
structure Travel (α : Type) where
  /-- The target as the program keeps it. -/
  target : Step α
  keyframes : List (Step α)
  warnings : List (Warning α)
  faults : List ProgramFault
  /-- The running time of the program after the motion. -/
  total : α

variable {α : Type} [Scalar α]

/-- Distances below this count as none, in millimetres. -/
def distanceTolerance : α := 1.0e-3

/-- Durations that differ by no more than this belong to the same span, in seconds. -/
def timeTolerance : α := 1.0e-9

namespace Step

/-- The groups whose linear motion starts without a defined configuration. -/
def undefinedStarts (next previous : Step α) : List ProgramFault :=
  (next.waypoints.zip previous.waypoints).zipIdx.filterMap fun ((waypoint, before), group) ↦
    if before.solution.configuration.isUndefined && waypoint.target.isLinear then
      some (.undefinedStart next.index group)
    else none

/-- The targets to solve for the end of the motion. -/
def endTargets (next previous : Step α) : List (Target α) :=
  List.zipWith (fun waypoint before ↦
      if waypoint.target.isLinear then
        waypoint.target.withConfiguration (some before.solution.configuration)
      else waypoint.target)
    next.waypoints previous.waypoints

end Step

namespace Waypoint

/-- The length of the path of the tool centre point in the frame of the target. -/
def pathLength (waypoint previous : Waypoint α) : α :=
  (waypoint.previousPlane previous).distance waypoint.plane

/-- How many substeps the motion of a group needs. Round-off must not add a substep to an exact
multiple of the step size. -/
def divisions (waypoint previous : Waypoint α) (stepSize : α) : Nat :=
  if waypoint.target.isLinear then
    Scalar.ceilNat ((waypoint.pathLength previous - distanceTolerance) / stepSize)
  else 0

/-- Whether neither the tool centre point nor any axis moves. -/
def isStill (waypoint previous : Waypoint α) : Bool :=
  waypoint.pathLength previous < distanceTolerance &&
    (waypoint.previousPlane previous).turn waypoint.plane < angleTolerance &&
    (waypoint.solution.joints.zip previous.solution.joints).all fun (a, b) ↦
      Scalar.abs (a - b) < angleTolerance

def endWarnings (target group : Nat) (waypoint previous : Waypoint α) : List (Warning α) :=
  (if waypoint.changesConfiguration && !waypoint.target.isLinear then
    [.configurationChange target group previous.solution.configuration
      waypoint.solution.configuration]
  else []) ++
  (if waypoint.isStill previous then [.noMotion target group] else [])

end Waypoint

namespace Step

/-- How many substeps the motion of all groups is solved in. -/
def motionDivisions (next previous : Step α) (stepSize : α) : Nat :=
  (List.zipWith (fun waypoint before ↦ waypoint.divisions before stepSize) next.waypoints
    previous.waypoints).foldl max 1

def endWarnings (next previous : Step α) : List (Warning α) :=
  (next.waypoints.zip previous.waypoints).zipIdx.flatMap fun ((waypoint, before), group) ↦
    waypoint.endWarnings next.index group before

end Step

/-- Solves the substeps from number `number` on, `count` of them, after the step `last` at the
running time `total`. Ends at the first substep with a fault. -/
def substepsFrom (cell : Cell α) (previous next : Step α) (divisions : Nat) :
    Nat → Nat → Step α → α → Except (StructureError α) (List (Substep α) × List ProgramFault)
  | 0, _, _, _ => .ok ([], [])
  | count + 1, number, last, total => do
    let targets := next.between previous cell (.ofParts number divisions)
    let solutions ← cell.solve targets (some last.joints)
    let step := (next.withTargets targets).withSolutions solutions (some last)
    let faults := ProgramFault.ofStep step
    if faults.isEmpty then
      let paces := cell.paces last step divisions
      let duration := Scalar.maximum (paces.map Pace.time)
      let step := { step with totalTime := total + duration }
      let (rest, faults) ← substepsFrom cell previous next divisions count (number + 1) step
        step.totalTime
      return (⟨step, paces, duration⟩ :: rest, faults)
    else return ([], faults)

/-- The substeps before which the duration stays the same and after which it changes, or all but the
last one. -/
def turningPoints (everySubstep : Bool) : List (Substep α) → List (Step α)
  | a :: b :: rest =>
    if everySubstep || timeTolerance < Scalar.abs (b.duration - a.duration) then
      a.step :: turningPoints everySubstep (b :: rest)
    else turningPoints everySubstep (b :: rest)
  | _ => []

/-- The steps with the time since the step before, the first one since `start`. -/
def stampDeltas (start : α) : List (Step α) → List (Step α)
  | [] => []
  | step :: rest =>
    { step with deltaTime := step.totalTime - start } :: stampDeltas step.totalTime rest

/-- The paces of one group over the substeps. -/
def groupPaces (substeps : List (Substep α)) (group : Nat) : List (Pace α) :=
  substeps.filterMap fun substep ↦ substep.paces[group]?

/-- The limits that determined the time of a substep, for every group that met one. -/
def limitWarnings (cell : Cell α) (target : Nat) (substeps : List (Substep α)) :
    List (Warning α) :=
  cell.groups.zipIdx.filterMap fun (group, place) ↦
    let paces := groupPaces substeps place
    let limits := group.limits.filter fun limit ↦ paces.any (·.isLimitedBy limit)
    if limits.isEmpty then none else some (.speedLimited target place limits)

/-- A motion whose substeps are all solved, the target `arrived` being its end. -/
def completeTravel (cell : Cell α) (arrived : Step α) (divisions : Nat) (start : α)
    (warnings : List (Warning α)) (substeps : List (Substep α)) : Travel α :=
  let last := (substeps.getLast?.map Substep.step).getD arrived
  let dwell := arrived.dwell
  let total := if 0 < dwell then last.totalTime + dwell else last.totalTime
  let dwelling := if 0 < dwell then [{ last with totalTime := total }] else []
  { target :=
      { arrived with
        waypoints := arrived.waypoints.zipIdx.map fun (waypoint, group) ↦
          { waypoint with leading := (Pace.slowest? (groupPaces substeps group)).map Pace.leading }
        totalTime := total
        deltaTime := total - start
        minTime := (substeps.map fun s ↦ Scalar.maximum (s.paces.map Pace.axisTime)).foldl
          (· + ·) 0
        divisions }
    keyframes := stampDeltas start
      (turningPoints cell.hasRedundantArm substeps ++ [last] ++ dwelling)
    warnings := warnings ++ limitWarnings cell arrived.index substeps
    faults := []
    total }

/-- The motion from the step `previous` to the target `next`, starting at the time `start`. -/
def travel (cell : Cell α) (stepSize : α) (previous next : Step α) (start : α) :
    Except (StructureError α) (Travel α) := do
  let undefined := next.undefinedStarts previous
  if !undefined.isEmpty then return ⟨next, [], [], undefined, start⟩
  let solutions ← cell.solve (next.endTargets previous) (some previous.joints)
  let arrived := next.withSolutions solutions (some previous)
  let faults := ProgramFault.ofStep arrived
  if !faults.isEmpty then return ⟨arrived, [], [], faults, start⟩
  let divisions := arrived.motionDivisions previous stepSize
  let warnings := arrived.endWarnings previous
  let (substeps, faults) ← substepsFrom cell previous arrived divisions divisions 1 previous start
  if faults.isEmpty then
    return completeTravel cell arrived divisions start warnings substeps
  else
    let total := (substeps.getLast?.map fun s ↦ s.step.totalTime).getD start
    let keyframes := stampDeltas start (turningPoints cell.hasRedundantArm substeps)
    return ⟨arrived, keyframes, warnings, faults, total⟩

/-- The outcome of all motions of a program. -/
structure Journey (α : Type) where
  targets : List (Step α)
  keyframes : List (Step α)
  warnings : List (Warning α)
  faults : List ProgramFault
  total : α

/-- The motions to the given targets, one after the other, up to the first one with a fault. -/
def journeyFrom (cell : Cell α) (stepSize : α) (previous : Step α) (total : α) :
    List (Step α) → Except (StructureError α) (Journey α)
  | [] => .ok ⟨[], [], [], [], total⟩
  | next :: rest => do
    let motion ← travel cell stepSize previous next total
    if motion.faults.isEmpty then
      let journey ← journeyFrom cell stepSize motion.target motion.total rest
      return { journey with
        targets := motion.target :: journey.targets
        keyframes := motion.keyframes ++ journey.keyframes
        warnings := motion.warnings ++ journey.warnings }
    else return ⟨[motion.target], motion.keyframes, motion.warnings, motion.faults, motion.total⟩

/-- The whole timeline, from the first target on. A dwell there takes a keyframe of its own. -/
def journey (cell : Cell α) (stepSize : α) (first : Step α) (rest : List (Step α)) :
    Except (StructureError α) (Journey α) := do
  let dwell := first.dwell
  let start := { first with totalTime := 0 }
  let (kept, keyframes) := if 0 < dwell then
      let kept := { first with totalTime := 0 + dwell, deltaTime := dwell }
      (kept, [start, kept])
    else (start, [start])
  let journey ← journeyFrom cell stepSize kept kept.totalTime rest
  return { journey with
    targets := kept :: journey.targets
    keyframes := keyframes ++ journey.keyframes }

end Toolpath
