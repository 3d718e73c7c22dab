import Toolpath.Program.Motion
import Toolpath.Program.Preparation

/-!
Compiled programs. `compile` takes one list of targets per group of the cell, all of the same
length. Geometric faults are reported in the program and cut it off after the first target that has
any; only a malformed program or cell is an error.
-/

set_option autoImplicit false
set_option relaxedAutoImplicit false

namespace Toolpath

structure Program (α : Type) where
  name : String
  cell : Cell α
  /-- The authored targets with their solutions, up to the first one with faults. -/
  targets : List (Step α)
  /-- The samples of the timeline between which the velocities do not change. -/
  keyframes : List (Step α)
  /-- The distinct attributes in the order of their first use. -/
  attributes : List (Attribute α)
  warnings : List (Warning α)
  faults : List ProgramFault
  /-- In seconds. -/
  duration : α
  /-- The length of the substeps of linear motions, in millimetres. -/
  stepSize : α

variable {α : Type} [Scalar α]

/-- The targets of all groups, step by step. -/
def stepsOf (toolpaths : List (List (Target α))) (count : Nat) : List (Step α) :=
  (List.range count).map fun index ↦ .ofTargets index (toolpaths.filterMap (·[index]?))

/-- The length of the toolpaths, all of them being of one length that is not zero. -/
def toolpathLength (toolpaths : List (List (Target α))) : Except (StructureError α) Nat :=
  let count := (toolpaths.head?.map List.length).getD 0
  if count = 0 then .error .emptyProgram
  else
    match toolpaths.zipIdx.find? fun (toolpath, _) ↦ toolpath.length != count with
    | some (toolpath, group) => .error (.toolpathLength group count toolpath.length)
    | none => .ok count

/-- A length that motions can be divided by. -/
def isStepSize (stepSize : α) : Bool :=
  0 < stepSize && Scalar.isFinite stepSize

/-- The steps of a program before any motion is solved. -/
structure PreparedProgram (α : Type) where
  first : Step α
  rest : List (Step α)
  attributes : List (Attribute α)
  warnings : List (Warning α)

/-- Prepares the first step and the others; the faults of the first target are those of its
solutions. -/
def prepare (cell : Cell α) (first : Step α) (rest : List (Step α)) :
    Except (StructureError α) (PreparedProgram α) := do
  match checkAllFrames cell (first :: rest) with
  | .error error => throw (.coupling error)
  | .ok () =>
    let (steps, fitWarnings) := fitExternals cell (first :: rest)
    let (anchored, anchorWarnings) ← anchor cell (steps.headD first)
    let steps := anchored :: steps.tail
    let (cleared, clearWarnings) := clearConfigurations steps
    let (named, attributes, nameWarnings) := nameAttributes cleared
    return {
      first := named.headD anchored
      rest := named.tail
      attributes
      warnings := fitWarnings ++ anchorWarnings ++ defaultWarnings steps ++ clearWarnings ++
        nameWarnings ++ payloadWarnings cell named }

namespace Program

/-- The timeline of a prepared program. Where the first target has faults there is no motion, and
the target is the only keyframe. -/
def timeline (cell : Cell α) (stepSize : α) (prepared : PreparedProgram α) :
    Except (StructureError α) (Journey α) :=
  let faults := ProgramFault.ofStep prepared.first
  if faults.isEmpty then journey cell stepSize prepared.first prepared.rest
  else .ok ⟨[prepared.first], [prepared.first], [], faults, 0⟩

def compile (name : String) (cell : Cell α) (toolpaths : List (List (Target α))) (stepSize : α) :
    Except (StructureError α) (Program α) := do
  if toolpaths.length ≠ cell.groups.length then
    throw (.groupCount cell.groups.length toolpaths.length)
  let count ← toolpathLength toolpaths
  if !isStepSize stepSize then throw (.stepSize stepSize)
  match stepsOf toolpaths count with
  | [] => throw .emptyProgram
  | first :: rest =>
    let prepared ← prepare cell first rest
    let journey ← timeline cell stepSize prepared
    return {
      name, cell, stepSize
      targets := journey.targets
      keyframes := journey.keyframes
      attributes := prepared.attributes
      warnings := prepared.warnings ++ journey.warnings
      faults := journey.faults
      duration := journey.total }

end Program

end Toolpath
