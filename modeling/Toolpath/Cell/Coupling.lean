import Toolpath.Cell

/-!
Solving one step of a cell, one target per group. A frame that is coupled to another group is placed
by the solution of that group, which is therefore solved first. Every group waits for at most one
other group, so that following the couplings from a group either ends at a group that waits for
none within as many links as there are groups, or runs in a loop.
-/

set_option autoImplicit false
set_option relaxedAutoImplicit false

namespace Toolpath.Cell

variable {α : Type} [Scalar α]

/-- Whether the frame of a target of the group can be placed. -/
def checkFrame (cell : Cell α) (frame : Frame α) (group : Nat) : Except CouplingError Unit :=
  let name := frame.label.name
  match frame.coupledGroup with
  | none =>
    if frame.coupledMechanism.isSome then .error (.mechanismWithoutGroup name) else .ok ()
  | some coupled =>
    match cell.groups[coupled]? with
    | none => .error (.unknownGroup name coupled cell.groups.length)
    | some carrier =>
      match frame.coupledMechanism with
      | some mechanism =>
        if carrier.externals.length ≤ mechanism then
          .error (.unknownMechanism name mechanism coupled carrier.externals.length)
        else .ok ()
      | none => if coupled = group then .error (.ownTool name group) else .ok ()

def checkFrames (cell : Cell α) (targets : List (Target α)) : Except CouplingError Unit :=
  targets.zipIdx.forM fun (target, group) ↦ cell.checkFrame target.frame group

/-- The other group that the frame of a group is coupled to. -/
def carrier? (targets : List (Target α)) (group : Nat) : Option Nat :=
  match targets[group]? with
  | none => none
  | some target => target.frame.coupledGroup.filter (· ≠ group)

/-- The plane of the carrying group that a frame follows. -/
def carrierPlane? (carrier : Group α) (frame : Frame α) (solution : Solution α) :
    Option (Pose α) :=
  match frame.coupledMechanism with
  | some mechanism => (carrier.mechanismPlane? mechanism).bind (solution.planes[·]?)
  | none => solution.planes.getLast?

/-- Solves one group with the given carrier plane. -/
def solveGroup (cell : Cell α) (targets : List (Target α)) (previous : Option (List (List α)))
    (group : Nat) (coupled : Option (Pose α)) : Option (Solution α) :=
  match cell.groups[group]?, targets[group]? with
  | some g, some target =>
    some (g.solve group target coupled (previous.bind (·[group]?)) cell.base)
  | _, _ => none

/-- Solves a group after the groups that it waits for, at most `links` of them; none where they run
in a loop. -/
def solveAfter (cell : Cell α) (targets : List (Target α)) (previous : Option (List (List α))) :
    Nat → Nat → Option (Solution α)
  | 0, _ => none
  | links + 1, group =>
    match carrier? targets group with
    | none => cell.solveGroup targets previous group none
    | some other =>
      match cell.groups[other]?, targets[group]? with
      | some carrier, some target =>
        (solveAfter cell targets previous links other).bind fun solution ↦
          cell.solveGroup targets previous group (carrierPlane? carrier target.frame solution)
      | _, _ => none

/-- Solves one step of the cell. `previous` holds the axis values of the step before, per group. -/
def solve (cell : Cell α) (targets : List (Target α)) (previous : Option (List (List α))) :
    Except (StructureError α) (List (Solution α)) :=
  let count := cell.groups.length
  if targets.length ≠ count then .error (.targetCount count targets.length)
  else
    match cell.checkFrames targets with
    | .error error => .error (.coupling error)
    | .ok () =>
      match (List.range count).mapM (cell.solveAfter targets previous count) with
      | none => .error (.coupling .loop)
      | some solutions => .ok solutions

end Toolpath.Cell
