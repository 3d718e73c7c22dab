import Toolpath.Program.Basic

/-!
Programs as they are kept, with the number and the group of every target beside it, and with its
instructions in the order of execution. Nothing expands a command again after that: dwells are read
off the stored instructions. A target is replaced together with them, but the substeps of a motion
are copies of its end, in which the targets alone are moved.

The way through preparation and motions is that of plain steps, which expand a command whenever
they need its instructions. Warnings are left to those.
-/

set_option autoImplicit false
set_option relaxedAutoImplicit false

namespace Toolpath

/-- The target of one group with what is stored beside it. -/
structure StoredTarget (α : Type) extends Waypoint α where
  /-- The number of the target. -/
  index : Nat
  group : Nat
  /-- The instructions of the command, groups being expanded. -/
  instructions : List (Instruction α)

structure StoredStep (α : Type) where
  index : Nat
  entries : List (StoredTarget α)
  totalTime : α
  deltaTime : α
  minTime : α
  divisions : Nat

/-- The outcome of one motion. -/
structure StoredTravel (α : Type) where
  target : StoredStep α
  keyframes : List (StoredStep α)
  faults : List ProgramFault
  total : α

structure StoredProgram (α : Type) where
  targets : List (StoredStep α)
  keyframes : List (StoredStep α)

variable {α : Type}

namespace StoredTarget

def ofWaypoint (index group : Nat) (waypoint : Waypoint α) : StoredTarget α :=
  { waypoint with index, group, instructions := waypoint.target.instructions }

variable [Scalar α]

def ofTarget (index group : Nat) (target : Target α) : StoredTarget α :=
  ofWaypoint index group (.ofTarget target)

/-- Replaces the target and its instructions. Only the solution stays. -/
def setTarget (entry : StoredTarget α) (target : Target α) : StoredTarget α :=
  { ofTarget entry.index entry.group target with solution := entry.solution }

/-- Replaces the target where there is another one for it. -/
def revise (change : Nat → Target α → Option (Target α)) (entry : StoredTarget α) :
    StoredTarget α :=
  match change entry.group entry.target with
  | none => entry
  | some target => entry.setTarget target

end StoredTarget

/-! ### Changes of targets -/

/-- The target with one external value per external axis, where it has not. -/
def fitted? [Scalar α] (cell : Cell α) (group : Nat) (target : Target α) : Option (Target α) :=
  if target.external.length = cell.externalCount group then none
  else some (fitExternal cell group target)

/-- The target without the configuration that a linear motion does not heed. -/
def cleared? (target : Target α) : Option (Target α) :=
  if hasIdleConfiguration target then some (target.withConfiguration none) else none

/-- The target with new names, where one of its attributes has a new name. -/
def renamed? (change : Relabelling) (target : Target α) : Option (Target α) :=
  if target.attributes.any fun entry ↦ change entry.kind entry.label != entry.label then
    some (target.relabel change)
  else none

namespace StoredStep

/-- The step without what is stored beside its targets. -/
def step (stored : StoredStep α) : Step α :=
  { index := stored.index
    waypoints := stored.entries.map StoredTarget.toWaypoint
    totalTime := stored.totalTime
    deltaTime := stored.deltaTime
    minTime := stored.minTime
    divisions := stored.divisions }

/-- The copy of a stored step at another place of a motion. -/
def copied (stored : StoredStep α) (step : Step α) : StoredStep α :=
  { index := stored.index
    entries := List.zipWith (fun entry waypoint ↦ { entry with toWaypoint := waypoint })
      stored.entries step.waypoints
    totalTime := step.totalTime
    deltaTime := step.deltaTime
    minTime := step.minTime
    divisions := step.divisions }

/-- Stores solutions and marks the groups whose configuration differs from the step before. -/
def withSolutions (stored : StoredStep α) (solutions : List (Solution α))
    (previous : Option (StoredStep α)) : StoredStep α :=
  { stored with
    entries := List.zipWith (fun entry solution ↦
        let before := (previous.bind (·.entries[entry.group]?)).map (·.solution.configuration)
        { entry with
          solution
          changesConfiguration := (before.map (· != solution.configuration)).getD false })
      stored.entries solutions }

variable [Scalar α]

/-- The targets at one index of the toolpaths. -/
def ofToolpaths (toolpaths : List (List (Target α))) (index : Nat) : StoredStep α :=
  { index
    entries := toolpaths.zipIdx.filterMap fun (toolpath, group) ↦
      toolpath[index]?.map (.ofTarget index group)
    totalTime := 0
    deltaTime := 0
    minTime := 0
    divisions := 0 }

def revise (stored : StoredStep α) (change : Nat → Target α → Option (Target α)) :
    StoredStep α :=
  { stored with entries := stored.entries.map (StoredTarget.revise change) }

/-- The longest dwell over the stored instructions of all groups. -/
def dwell (stored : StoredStep α) : α :=
  Scalar.maximum ((stored.entries.flatMap StoredTarget.instructions).filterMap
    Instruction.waitSeconds?)

/-- The first step as a start in joints. -/
def anchor (cell : Cell α) (first : StoredStep α) : Except (StructureError α) (StoredStep α) := do
  let solutions ← cell.solve first.step.targets none
  let entries := List.zipWith (fun entry solution ↦
      if entry.target.isCartesian then
        entry.setTarget (anchorTarget cell entry.group entry.target solution)
      else entry)
    first.entries solutions
  return withSolutions { first with entries } solutions none

/-- Prepares the first step and the others. -/
def prepare (cell : Cell α) (first : StoredStep α) (rest : List (StoredStep α)) :
    Except (StructureError α) (StoredStep α × List (StoredStep α)) := do
  match checkAllFrames cell ((first :: rest).map step) with
  | .error error => throw (.coupling error)
  | .ok () =>
    let anchored ← anchor cell (first.revise (fitted? cell))
    let cleared := anchored.revise fun _ ↦ cleared?
    let others := rest.map fun stored ↦ (stored.revise (fitted? cell)).revise fun _ ↦ cleared?
    let listing := listAttributes ((cleared :: others).map step)
    let names := (Naming.ofListing listing).relabelling
    return (cleared.revise fun _ ↦ renamed? names,
      others.map fun stored ↦ stored.revise fun _ ↦ renamed? names)

/-! ### Motions -/

/-- A motion whose substeps are all solved, the target `arrived` being its end. -/
def complete (cell : Cell α) (arrived : StoredStep α) (divisions : Nat) (start : α)
    (substeps : List (Substep α)) : StoredTravel α :=
  let last := (substeps.getLast?.map Substep.step).getD arrived.step
  let dwell := arrived.dwell
  let total := if 0 < dwell then last.totalTime + dwell else last.totalTime
  let dwelling := if 0 < dwell then [{ last with totalTime := total }] else []
  { target :=
      { arrived with
        entries := arrived.entries.zipIdx.map fun (entry, group) ↦
          { entry with leading := (Pace.slowest? (groupPaces substeps group)).map Pace.leading }
        totalTime := total
        deltaTime := total - start
        minTime := (substeps.map fun s ↦ Scalar.maximum (s.paces.map Pace.axisTime)).foldl
          (· + ·) 0
        divisions }
    keyframes := (stampDeltas start
      (turningPoints cell.hasRedundantArm substeps ++ [last] ++ dwelling)).map arrived.copied
    faults := []
    total }

/-- The motion from the step `previous` to the target `next`, starting at the time `start`. -/
def travel (cell : Cell α) (stepSize : α) (previous next : StoredStep α) (start : α) :
    Except (StructureError α) (StoredTravel α) := do
  let undefined := next.step.undefinedStarts previous.step
  if !undefined.isEmpty then return ⟨next, [], undefined, start⟩
  let solutions ← cell.solve (next.step.endTargets previous.step) (some previous.step.joints)
  let arrived := next.withSolutions solutions (some previous)
  let faults := ProgramFault.ofStep arrived.step
  if !faults.isEmpty then return ⟨arrived, [], faults, start⟩
  let divisions := arrived.step.motionDivisions previous.step stepSize
  let (substeps, faults) ← substepsFrom cell previous.step arrived.step divisions divisions 1
    previous.step start
  if faults.isEmpty then return arrived.complete cell divisions start substeps
  else
    let total := (substeps.getLast?.map fun s ↦ s.step.totalTime).getD start
    let keyframes := stampDeltas start (turningPoints cell.hasRedundantArm substeps)
    return ⟨arrived, keyframes.map arrived.copied, faults, total⟩

/-- The motions to the given targets, one after the other, up to the first one with a fault. -/
def journeyFrom (cell : Cell α) (stepSize : α) (previous : StoredStep α) (total : α) :
    List (StoredStep α) → Except (StructureError α) (StoredProgram α)
  | [] => .ok ⟨[], []⟩
  | next :: rest => do
    let motion ← travel cell stepSize previous next total
    if motion.faults.isEmpty then
      let program ← journeyFrom cell stepSize motion.target motion.total rest
      return ⟨motion.target :: program.targets, motion.keyframes ++ program.keyframes⟩
    else return ⟨[motion.target], motion.keyframes⟩

/-- The whole timeline. Where the first target has faults there is no motion. -/
def timeline (cell : Cell α) (stepSize : α) (first : StoredStep α) (rest : List (StoredStep α)) :
    Except (StructureError α) (StoredProgram α) := do
  if !(ProgramFault.ofStep first.step).isEmpty then return ⟨[first], [first]⟩
  let dwell := first.dwell
  let start := { first with totalTime := 0 }
  let (kept, keyframes) := if 0 < dwell then
      let kept := { first with totalTime := 0 + dwell, deltaTime := dwell }
      (kept, [start, kept])
    else (start, [start])
  let program ← journeyFrom cell stepSize kept kept.totalTime rest
  return ⟨kept :: program.targets, keyframes ++ program.keyframes⟩

end StoredStep

/-- The targets and the keyframes of a program as they are kept. -/
def StoredProgram.compile [Scalar α] (cell : Cell α) (toolpaths : List (List (Target α)))
    (stepSize : α) : Except (StructureError α) (StoredProgram α) := do
  if toolpaths.length ≠ cell.groups.length then
    throw (.groupCount cell.groups.length toolpaths.length)
  let count ← toolpathLength toolpaths
  if !isStepSize stepSize then throw (.stepSize stepSize)
  match (List.range count).map (StoredStep.ofToolpaths toolpaths) with
  | [] => throw .emptyProgram
  | first :: rest =>
    let (first, rest) ← StoredStep.prepare cell first rest
    StoredStep.timeline cell stepSize first rest

end Toolpath
