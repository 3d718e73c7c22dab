import Toolpath.Proofs.Exact.Branches
import Toolpath.Proofs.Coupling.Resolution
import Toolpath.Proofs.Substeps

/-!
How many axis values a solved step has. Every branch of an arm has one value per axis
(`Solver.length_inverse`), whichever way the branch is chosen (`Arm.length_joints_solve`), and every
mechanism has its own slice; so a solved step is `Filled`, whether it has faults or not.
-/

set_option autoImplicit false
set_option relaxedAutoImplicit false

namespace Toolpath

theorem Arm.length_joints_solve (arm : Arm ℝ) (target : Target ℝ) (frame : Pose ℝ)
    (previous : Option (List ℝ)) (parent : Pose ℝ) :
    (arm.solve target frame previous parent).joints.length = arm.axisCount := by
  rw [solve, length_limitAll]
  exact arm.length_position _ _ _ fun _ _ _ _ ↦ Exact.isFinite_eq_true _

/-! ### Groups and steps -/

namespace Cell

variable {α : Type} {cell : Cell α} {index : Nat} {group : Group α}

theorem armAxisCount_of_getElem? (h : cell.groups[index]? = some group) :
    cell.armAxisCount index = group.arm.axisCount := by
  rw [armAxisCount, h]
  rfl

theorem externalCount_of_getElem? (h : cell.groups[index]? = some group) :
    cell.externalCount index = group.externalCount := by
  rw [externalCount, h]
  rfl

end Cell

namespace Group

theorem length_joints_solve (group : Group ℝ) (index : Nat) (target : Target ℝ)
    (coupled : Option (Pose ℝ)) (previous : Option (List ℝ)) (parent : Pose ℝ) :
    (group.solve index target coupled previous parent).joints.length = group.jointCount := by
  rw [solve, List.length_append, Arm.length_joints_solve, length_joints_solveMechanisms]
  rfl

end Group

/-- Every group has a value for each of its axes. -/
def Step.Filled (step : Step ℝ) (cell : Cell ℝ) : Prop :=
  ∀ (index : Nat) (group : Group ℝ), cell.groups[index]? = some group →
    ∃ solution, step.solutions[index]? = some solution ∧ solution.joints.length = group.jointCount

theorem Step.filled_of_solve {cell : Cell ℝ} {targets : List (Target ℝ)}
    {previous : Option (List (List ℝ))} {step : Step ℝ}
    (h : cell.solve targets previous = .ok step.solutions) : step.Filled cell := by
  intro index group hgroup
  obtain ⟨_, _, _, hsolution⟩ := Cell.exists_solve_of_group h hgroup
  exact ⟨_, hsolution, group.length_joints_solve _ _ _ _ _⟩

/-- Every substep has all axis values. -/
theorem filled_of_substepsFrom {cell : Cell ℝ} {previous next : Step ℝ}
    {divisions count number : Nat} {last : Step ℝ} {substeps : List (Substep ℝ)}
    {faults : List ProgramFault}
    (hsubsteps : substepsFrom cell previous next divisions count number last last.totalTime =
      .ok (substeps, faults))
    (hcount : next.waypoints.length = cell.groups.length) (hlast : last.Filled cell) :
    ∀ step ∈ last :: substeps.map Substep.step, step.Filled cell := by
  refine List.forall_mem_cons.mpr ⟨hlast, fun step hstep ↦ ?_⟩
  obtain ⟨substep, hsubstep, rfl⟩ := List.mem_map.mp hstep
  obtain ⟨_, _, hsolved⟩ := exists_solvedFrom_of_mem hcount hsubsteps hsubstep
  exact Step.filled_of_solve hsolved.solve

end Toolpath
