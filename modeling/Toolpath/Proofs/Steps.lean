import Toolpath.Program.Motion
import Toolpath.Proofs.Coupling.Loop

/-!
Steps with as many waypoints as the cell has groups. The task of a step is its number with the
targets of its groups; storing solutions and stamping times leave it as it is
(`Step.task_withSolutions`).
-/

set_option autoImplicit false
set_option relaxedAutoImplicit false

namespace Toolpath

variable {α : Type}

namespace Step

/-- What a step asks for. -/
def task (step : Step α) : Nat × List (Target α) :=
  (step.index, step.targets)

@[simp] theorem length_targets (step : Step α) : step.targets.length = step.waypoints.length :=
  List.length_map _

@[simp] theorem length_solutions (step : Step α) :
    step.solutions.length = step.waypoints.length :=
  List.length_map _

theorem getElem?_targets {step : Step α} {index : Nat} {waypoint : Waypoint α}
    (hwaypoint : step.waypoints[index]? = some waypoint) :
    step.targets[index]? = some waypoint.target := by
  rw [targets, List.getElem?_map, hwaypoint, Option.map_some]

theorem getElem?_solutions {step : Step α} {index : Nat} {waypoint : Waypoint α}
    (hwaypoint : step.waypoints[index]? = some waypoint) :
    step.solutions[index]? = some waypoint.solution := by
  rw [solutions, List.getElem?_map, hwaypoint, Option.map_some]

theorem targets_ofTargets [Scalar α] (index : Nat) (targets : List (Target α)) :
    (ofTargets index targets).targets = targets := by
  rw [Step.targets, ofTargets, List.map_map]
  exact List.map_id targets

@[simp] theorem length_waypoints_mapTargets (step : Step α)
    (change : Nat → Target α → Target α) :
    (step.mapTargets change).waypoints.length = step.waypoints.length := by
  rw [mapTargets, List.length_map, List.length_zipIdx]

theorem targets_mapTargets (step : Step α) (change : Nat → Target α → Target α) :
    (step.mapTargets change).targets =
      step.targets.zipIdx.map fun (target, group) ↦ change group target := by
  refine List.ext_getElem (by simp) fun group _ _ ↦ ?_
  simp [Step.targets, mapTargets]

theorem getElem?_targets_mapTargets (step : Step α) (change : Nat → Target α → Target α)
    (group : Nat) :
    (step.mapTargets change).targets[group]? = step.targets[group]?.map (change group) := by
  rw [targets_mapTargets, List.getElem?_map, List.getElem?_zipIdx, Option.map_map, Nat.zero_add]
  rfl

/-- The same change in every group. -/
theorem targets_mapTargets_const (step : Step α) (change : Target α → Target α) :
    (step.mapTargets fun _ ↦ change).targets = step.targets.map change := by
  refine List.ext_getElem (by simp) fun group _ _ ↦ ?_
  simp [Step.targets, mapTargets]

theorem mapTargets_mapTargets (step : Step α) (second first : Nat → Target α → Target α) :
    (step.mapTargets first).mapTargets second =
      step.mapTargets fun group target ↦ second group (first group target) := by
  rw [mapTargets, mapTargets, mapTargets]
  congr 1
  refine List.ext_getElem (by simp) fun group _ _ ↦ ?_
  simp

/-- What a change of the targets keeps of each of them, it keeps of the step. -/
theorem map_targets_mapTargets {β : Type} {f : Target α → β} {change : Nat → Target α → Target α}
    (hchange : ∀ group target, f (change group target) = f target) (step : Step α) :
    (step.mapTargets change).targets.map f = step.targets.map f := by
  rw [targets_mapTargets, List.map_map]
  refine List.ext_getElem (by simp) fun group _ _ ↦ ?_
  simp [hchange]

theorem solutions_mapTargets (step : Step α) (change : Nat → Target α → Target α) :
    (step.mapTargets change).solutions = step.solutions := by
  refine List.ext_getElem (by simp) fun group _ _ ↦ ?_
  simp [Step.solutions, mapTargets]

/-- The faults of a step are those of its solutions. -/
theorem faults_eq (step : Step α) : step.faults = step.solutions.zipIdx.flatMap
    fun (solution, group) ↦ solution.faults.map fun fault ↦ (group, fault) := by
  rw [faults, solutions, List.zipIdx_map, List.flatMap_map]
  rfl

theorem joints_eq (step : Step α) : step.joints = step.solutions.map Solution.joints := by
  rw [joints, solutions, List.map_map]
  rfl

theorem instructions_eq [Scalar α] (step : Step α) :
    step.instructions = step.targets.flatMap Target.instructions := by
  rw [instructions, targets, List.flatMap_map]

/-- A step whose groups have no faults has none. -/
theorem faults_eq_nil {step : Step α} (h : ∀ solution ∈ step.solutions, solution.faults = []) :
    step.faults = [] := by
  rw [faults_eq, List.flatMap_eq_nil_iff]
  rintro ⟨solution, group⟩ hentry
  have hsolution := List.mem_of_getElem? (List.mem_zipIdx_iff_getElem?.mp hentry)
  exact List.map_eq_nil_iff.mpr (h solution hsolution)

/-- No group of a step without faults has any. -/
theorem faults_of_mem_solutions {step : Step α} (h : step.faults = []) {solution : Solution α}
    (hsolution : solution ∈ step.solutions) : solution.faults = [] := by
  obtain ⟨group, hgroup⟩ := List.mem_iff_getElem?.mp hsolution
  rw [faults_eq, List.flatMap_eq_nil_iff] at h
  exact List.map_eq_nil_iff.mp
    (h (solution, group) (List.mem_zipIdx_iff_getElem?.mpr hgroup))

theorem length_waypoints_withTargets {step : Step α} {targets : List (Target α)}
    (h : targets.length = step.waypoints.length) :
    (step.withTargets targets).waypoints.length = step.waypoints.length := by
  rw [withTargets, List.length_zipWith, h, Nat.min_self]

theorem targets_withTargets {step : Step α} {targets : List (Target α)}
    (h : targets.length = step.waypoints.length) : (step.withTargets targets).targets = targets := by
  refine List.ext_getElem (by simp [length_waypoints_withTargets h, h]) fun group _ _ ↦ ?_
  simp [Step.targets, withTargets]

theorem length_waypoints_withSolutions {step : Step α} {solutions : List (Solution α)}
    (previous : Option (Step α)) (h : solutions.length = step.waypoints.length) :
    (step.withSolutions solutions previous).waypoints.length = step.waypoints.length := by
  rw [withSolutions, List.length_map, List.length_zipIdx, List.length_zip, h, Nat.min_self]

theorem targets_withSolutions {step : Step α} {solutions : List (Solution α)}
    (previous : Option (Step α)) (h : solutions.length = step.waypoints.length) :
    (step.withSolutions solutions previous).targets = step.targets := by
  refine List.ext_getElem (by simp [length_waypoints_withSolutions previous h])
    fun group _ _ ↦ ?_
  simp [Step.targets, withSolutions]

theorem solutions_withSolutions {step : Step α} {solutions : List (Solution α)}
    (previous : Option (Step α)) (h : solutions.length = step.waypoints.length) :
    (step.withSolutions solutions previous).solutions = solutions := by
  refine List.ext_getElem (by simp [length_waypoints_withSolutions previous h, h])
    fun group _ _ ↦ ?_
  simp [Step.solutions, withSolutions]

theorem task_withSolutions {step : Step α} {solutions : List (Solution α)}
    (previous : Option (Step α)) (h : solutions.length = step.waypoints.length) :
    (step.withSolutions solutions previous).task = step.task := by
  rw [task, targets_withSolutions previous h, task]
  rfl

end Step

theorem Cell.length_of_solve [Scalar α] {cell : Cell α} {targets : List (Target α)}
    {previous : Option (List (List α))} {solutions : List (Solution α)}
    (h : cell.solve targets previous = .ok solutions) :
    targets.length = cell.groups.length ∧ solutions.length = cell.groups.length := by
  obtain ⟨hcount, hframes⟩ := checked_of_solve h
  exact ⟨hcount, ((solve_eq_ok_iff cell hcount hframes previous).mp h).1⟩

end Toolpath
