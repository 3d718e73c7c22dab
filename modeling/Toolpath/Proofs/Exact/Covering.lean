import Toolpath.Proofs.Exact.Offset
import Toolpath.Proofs.Exact.Positions
import Toolpath.Proofs.Exact.Redundant
import Toolpath.Proofs.Exact.Spherical

/-!
The branches cover the regular positions. Each of the three topologies has its own `Standard`
geometry and its own `Regular` positions, which one of the eight branches finds again from the
flange (`Solver.exists_turned_inverse`). No other branch can be nearer than a position is to itself,
so that the closest branch is at no distance and the configuration of the position names it
(`Arm.covered_of_regular`).
-/

set_option autoImplicit false
set_option relaxedAutoImplicit false

namespace Toolpath

namespace Solver

/-- The geometry that the analytic solution of the topology is made for. -/
def Standard : Solver ℝ → Prop
  | sphericalWrist arm => arm.Standard
  | offsetWrist arm => arm.Standard
  | redundant arm => arm.Standard

/-- The pose that a position leads to. -/
noncomputable def flangeAt (solver : Solver ℝ) (q : List ℝ) : Pose ℝ :=
  (solver.forward q).getLastD 1

/-- A value for every axis, away from the positions that the flange does not tell. -/
def Regular (solver : Solver ℝ) (q : List ℝ) : Prop :=
  match solver, q with
  | sphericalWrist arm, [q1, _, _, _, q5, _] => arm.Regular (solver.flangeAt q) q1 q5
  | offsetWrist arm, [q1, q2, q3, _, q5, _] => arm.Regular (solver.flangeAt q) q1 q2 q3 q5
  | redundant arm, [q1, _, _, _, _, q6, _] => arm.Regular (solver.flangeAt q) q1 q6
  | _, _ => False

variable {solver : Solver ℝ} {q : List ℝ}

theorem getLast?_forward_cons (solver : Solver ℝ) (q1 : ℝ) (rest : List ℝ) :
    (solver.forward (q1 :: rest)).getLast? = some (solver.flangeAt (q1 :: rest)) := by
  rcases solver with arm | arm | arm <;> exact getLast?_chain_cons _ _ _ _

/-- One of the eight branches finds a regular position from its flange. -/
theorem exists_turned_inverse (harm : solver.Standard) (hq : solver.Regular q) :
    ∃ flange, (solver.forward q).getLast? = some flange ∧
      ∃ configuration ∈ branches,
        (solver.inverse flange configuration (solver.redundancy q)).faults = [] ∧
        Angle.Turned (solver.inverse flange configuration (solver.redundancy q)).joints q := by
  match solver, q, hq with
  | sphericalWrist arm, [q1, q2, q3, q4, q5, q6], hq =>
    have hflange := getLast?_forward_cons (sphericalWrist arm) q1 [q2, q3, q4, q5, q6]
    obtain ⟨configuration, hbranch, hfound⟩ :=
      SphericalWrist.exists_turned_inverse harm hflange hq
    exact ⟨_, hflange, configuration, hbranch, hfound⟩
  | offsetWrist arm, [q1, q2, q3, q4, q5, q6], hq =>
    have hflange := getLast?_forward_cons (offsetWrist arm) q1 [q2, q3, q4, q5, q6]
    obtain ⟨configuration, hbranch, hfound⟩ :=
      OffsetWrist.exists_turned_inverse harm hflange hq
    exact ⟨_, hflange, configuration, hbranch, hfound⟩
  | redundant arm, [q1, q2, q3, q4, q5, q6, q7], hq =>
    have hflange := getLast?_forward_cons (redundant arm) q1 [q2, q3, q4, q5, q6, q7]
    obtain ⟨configuration, hbranch, hfound⟩ :=
      RedundantArm.exists_turned_inverse harm hflange hq
    exact ⟨_, hflange, configuration, hbranch, hfound⟩

/-- A branch is at no distance from the positions that it gives up to whole turns. -/
theorem difference_follow_eq_zero_iff {flange : Pose ℝ} {configuration : Configuration}
    (hlength : q.length = solver.axisCount) :
    (solver.follow flange q configuration).difference = 0 ↔
      Angle.Turned (solver.inverse flange configuration (solver.redundancy q)).joints q := by
  have hfollowed := Angle.turned_follow
    (solver.inverse flange configuration (solver.redundancy q)).joints q
  have hcount : (solver.follow flange q configuration).joints.length = q.length := by
    rw [hlength, ← solver.length_inverse flange configuration (solver.redundancy q)]
    exact hfollowed.length_eq
  refine (Angle.squaredDistance_eq_zero_iff hcount).trans ⟨hfollowed.symm.trans, hfollowed.trans⟩

end Solver

/-- The branches cover a position, `flange` being the pose that it leads to. -/
structure Arm.Covered (arm : Arm ℝ) (flange : Pose ℝ) (q : List ℝ) : Prop where
  /-- One of the branches gives the position up to whole turns. -/
  branch : ∃ configuration ∈ Solver.branches,
    (arm.solver.inverse flange configuration (arm.solver.redundancy q)).faults = [] ∧
    Angle.Turned (arm.solver.inverse flange configuration (arm.solver.redundancy q)).joints q
  /-- The closest branch is at no distance. -/
  closest : ∃ closest, arm.solver.closest? flange q = some closest ∧ closest.difference = 0
  /-- The configuration of the position names a branch. -/
  defined : (arm.configurationOf q).isUndefined = false ∧
    arm.configurationOf q ∈ Solver.branches
  /-- The branch that is named gives the position up to whole turns. -/
  named : Angle.Turned
    (arm.solver.inverse flange (arm.configurationOf q) (arm.solver.redundancy q)).joints q

/-- The branches cover the regular positions of every arm of a standard geometry. -/
theorem Arm.covered_of_regular (arm : Arm ℝ) (harm : arm.solver.Standard) {q : List ℝ}
    (hq : arm.solver.Regular q) :
    ∃ flange, (arm.solver.forward q).getLast? = some flange ∧ arm.Covered flange q := by
  obtain ⟨flange, hflange, configuration, hbranch, hfaults, hturned⟩ :=
    Solver.exists_turned_inverse harm hq
  have hlength : q.length = arm.solver.axisCount := by
    rw [← hturned.length_eq, Solver.length_inverse]
  -- The distance of the branch that gives the position is zero, and no kept branch exceeds it.
  obtain ⟨held, hheld, hclosest⟩ := arm.solver.exists_follow_of_closest? flange q
  have hzero : (arm.solver.follow flange q held).difference = 0 := by
    refine le_antisymm ?_ (Angle.squaredDistance_nonneg _ _)
    rw [← (Solver.difference_follow_eq_zero_iff hlength).mpr hturned]
    exact Solver.difference_le_of_closest? hclosest hbranch
  have hconfiguration : arm.configurationOf q = held := by
    have hnear : (0 : ℝ) < angleTolerance := by norm_num [angleTolerance]
    simp only [configurationOf, hflange, hclosest, hzero]
    exact if_pos hnear
  refine ⟨flange, hflange, ⟨configuration, hbranch, hfaults, hturned⟩, ⟨_, hclosest, hzero⟩, ?_, ?_⟩
  · rw [hconfiguration]
    exact ⟨Solver.isUndefined_of_mem_branches hheld, hheld⟩
  · rw [hconfiguration]
    exact (Solver.difference_follow_eq_zero_iff hlength).mp hzero

/-- The plain arm with another analytic solution. -/
noncomputable def plainArmWith (solver : Solver ℝ) : Arm ℝ :=
  { plainArm with solver }

/-- A right-angled position for each topology. -/
theorem Arm.covered_rightAngles :
    (∃ flange, (plainWrist.forward SphericalWrist.rightAngles).getLast? = some flange ∧
      (plainArmWith (.sphericalWrist plainWrist)).Covered flange SphericalWrist.rightAngles) ∧
    (∃ flange, (OffsetWrist.plainOffset.forward OffsetWrist.rightAngles).getLast? = some flange ∧
      (plainArmWith (.offsetWrist .plainOffset)).Covered flange OffsetWrist.rightAngles) ∧
    ∃ flange, (RedundantArm.plainRedundant.forward RedundantArm.rightAngles).getLast? =
        some flange ∧
      (plainArmWith (.redundant .plainRedundant)).Covered flange RedundantArm.rightAngles :=
  ⟨covered_of_regular (plainArmWith (.sphericalWrist plainWrist))
      SphericalWrist.standard_plainWrist SphericalWrist.regular_angular,
    covered_of_regular (plainArmWith (.offsetWrist .plainOffset))
      OffsetWrist.standard_plainOffset OffsetWrist.regular_angular,
    covered_of_regular (plainArmWith (.redundant .plainRedundant))
      RedundantArm.standard_plainRedundant RedundantArm.regular_angular⟩

end Toolpath
