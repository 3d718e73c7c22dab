import Toolpath.Cell.Coupling

/-!
The same step of a cell, solved without following the couplings: the waiting groups are scanned
again and again, in any order, and a group is solved as soon as the group that carries its frame
is. A group solved in a scan already serves the groups behind it in the same scan. Where a whole
scan solves nothing, the waiting groups run in a loop.
-/

set_option autoImplicit false
set_option relaxedAutoImplicit false

namespace Toolpath.Cell

variable {α : Type} [Scalar α]

/-- Solves one group from the solutions found so far, if it does not have to wait. -/
def visit (cell : Cell α) (targets : List (Target α)) (previous : Option (List (List α)))
    (found : Nat → Option (Solution α)) (group : Nat) : Option (Solution α) :=
  match carrier? targets group with
  | none => cell.solveGroup targets previous group none
  | some other =>
    match cell.groups[other]?, targets[group]? with
    | some carrier, some target =>
      (found other).bind fun solution ↦
        cell.solveGroup targets previous group (carrierPlane? carrier target.frame solution)
    | _, _ => none

/-- One scan over the waiting groups: those that still wait, and the solutions found. -/
def pass (cell : Cell α) (targets : List (Target α)) (previous : Option (List (List α))) :
    List Nat → (Nat → Option (Solution α)) → List Nat × (Nat → Option (Solution α))
  | [], found => ([], found)
  | group :: rest, found =>
    match cell.visit targets previous found group with
    | some solution =>
      pass cell targets previous rest fun g ↦ if g = group then some solution else found g
    | none =>
      let (waiting, found) := pass cell targets previous rest found
      (group :: waiting, found)

/-- Scans until no group waits; none where a scan solves nothing. -/
def scan (cell : Cell α) (targets : List (Target α)) (previous : Option (List (List α)))
    (waiting : List Nat) (found : Nat → Option (Solution α)) :
    Option (Nat → Option (Solution α)) :=
  if waiting.isEmpty then some found
  else
    let (left, found) := cell.pass targets previous waiting found
    if left.length < waiting.length then scan cell targets previous left found else none
termination_by waiting.length

/-- Solves one step of the cell, scanning the groups in the given order. -/
def solveInOrder (cell : Cell α) (order : List Nat) (targets : List (Target α))
    (previous : Option (List (List α))) : Except (StructureError α) (List (Solution α)) :=
  let count := cell.groups.length
  if targets.length ≠ count then .error (.targetCount count targets.length)
  else
    match cell.checkFrames targets with
    | .error error => .error (.coupling error)
    | .ok () =>
      match cell.scan targets previous order fun _ ↦ none with
      | none => .error (.coupling .loop)
      | some found => .ok ((List.range count).filterMap found)

end Toolpath.Cell
