import Toolpath.Proofs.Exact.Branches
import Toolpath.Proofs.Exact.Frames
import Toolpath.Arm.Preset

/-!
A solution without faults is on its target. The analytic solver of an arm is only asked for what it
promises at one flange pose (`Solver.Reproduces`). From there the pose is followed through the
choice of the branch, the whole turns of the axes, the ranges (`Arm.same_forward_solve`), the mount
of the arm and the tool, to the last plane of the group (`solve_reaches_target`).
-/

set_option autoImplicit false
set_option relaxedAutoImplicit false

namespace Toolpath

/-- Every branch without faults for the flange pose leads the chain back to that pose. -/
def Solver.Reproduces (solver : Solver ℝ) (flange : Pose ℝ) : Prop :=
  ∀ (configuration : Configuration) (redundancy : ℝ),
    (solver.inverse flange configuration redundancy).faults = [] →
      ∃ last, (solver.forward (solver.inverse flange configuration redundancy).joints).getLast? =
        some last ∧ last.Same flange

/-! ### The flange -/

/-- The flange pose that puts the tool on the target does so on a rigid mount. -/
theorem mount_flangeFor {mount frame pose tool : Pose ℝ} (hmount : mount.Rigid)
    (hframe : frame.Rigid) (hpose : pose.Rigid) (htool : tool.Rigid) :
    mount * Arm.flangeFor mount frame pose tool * tool = frame * pose := by
  have hgoal : (mount.inverse * frame * pose).Rigid := (hmount.inverse.mul hframe).mul hpose
  calc mount * (mount.inverse * frame * pose * tool.inverse) * tool
      = mount * (mount.inverse * frame * pose * tool.inverse * tool) :=
        Pose.mul_assoc hmount (hgoal.mul htool.inverse) tool
    _ = mount * (mount.inverse * frame * pose) := by rw [Pose.mul_mul_inverse_mul hgoal htool]
    _ = mount * (mount.inverse * (frame * pose)) := by rw [Pose.mul_assoc hmount.inverse hframe]
    _ = frame * pose := Pose.mul_inverse_mul hmount (frame * pose)

theorem Arm.flangeFor_one (pose : Pose ℝ) : flangeFor 1 1 pose 1 = pose := by
  rw [flangeFor, Pose.inverse_one, Pose.one_mul, Pose.one_mul, Pose.mul_one]

namespace Arm

variable {arm : Arm ℝ} {target : Target ℝ} {frame parent pose : Pose ℝ}
  {previous : Option (List ℝ)} {forced : Option Configuration} {motion : Motion}

/-- Without faults the chain of the arm ends at the flange pose that is asked for. -/
theorem same_forward_solve (hgoal : target.goal = .cartesian pose forced motion)
    (hreproduces : arm.solver.Reproduces
      (flangeFor (parent * arm.base) frame pose target.tool.tcp))
    (hfaults : (arm.solve target frame previous parent).faults = []) :
    ∃ last, (arm.solver.forward (arm.solve target frame previous parent).joints).getLast? =
      some last ∧ last.Same (flangeFor (parent * arm.base) frame pose target.tool.tcp) := by
  have hposition : arm.position target (parent * arm.base) frame previous =
      arm.reach (flangeFor (parent * arm.base) frame pose target.tool.tcp) forced previous := by
    rw [position, hgoal]
  simp only [solve, hposition, List.append_eq_nil_iff, List.map_eq_nil_iff] at hfaults ⊢
  obtain ⟨hbranch, hranges⟩ := hfaults
  obtain ⟨configuration, redundancy, hfaults, hturned⟩ := arm.exists_inverse_of_reach
    (flangeFor (parent * arm.base) frame pose target.tool.tcp) forced previous
  obtain ⟨last, hlast, hflange⟩ := hreproduces configuration redundancy (hfaults ▸ hbranch)
  obtain ⟨reached, hreached, hsame⟩ := exists_getLast?_same (arm.solver.same_forward hturned) hlast
  rw [limitAll_eq_self hranges]
  exact ⟨reached, hreached, hsame.trans hflange⟩

/-- Without faults the flange carries the tool to the target. -/
theorem same_tcp_solve (hbase : (parent * arm.base).Rigid) (hframe : frame.Rigid)
    (htarget : target.Rigid) (hgoal : target.goal = .cartesian pose forced motion)
    (hreproduces : arm.solver.Reproduces
      (flangeFor (parent * arm.base) frame pose target.tool.tcp))
    (hfaults : (arm.solve target frame previous parent).faults = []) :
    ((arm.solve target frame previous parent).tcp * target.tool.tcp).Same (frame * pose) := by
  obtain ⟨last, hlast, hflange⟩ := same_forward_solve hgoal hreproduces hfaults
  have htcp : (arm.solve target frame previous parent).tcp = parent * arm.base * last := by
    have hplanes : (arm.solve target frame previous parent).planes = parent * arm.base ::
      (arm.solver.forward (arm.solve target frame previous parent).joints).map
        (parent * arm.base * ·) := rfl
    rw [Solution.tcp, hplanes, List.getLastD_cons, List.getLastD_eq_getLast?, List.getLast?_map,
      hlast, Option.map_some, Option.getD_some]
  rw [htcp, ← mount_flangeFor hbase hframe (htarget.goal hgoal) htarget.tool]
  exact ((Pose.Same.refl _).mul hflange).mul (Pose.Same.refl _)

end Arm

/-! ### A solved step -/

/-- In a cell of rigid poses, a solution without faults of a group with a Cartesian target has its
last plane, the tool centre point, at the pose of the target in the frame that the target was
solved in. Of the arm it is assumed that the branches without faults for the flange pose that is
asked for lead back to it. -/
theorem Cell.solve_reaches_target {cell : Cell ℝ} (hcell : cell.Rigid)
    {targets : List (Target ℝ)} (htargets : ∀ target ∈ targets, target.Rigid)
    {previous : Option (List (List ℝ))} {solutions : List (Solution ℝ)}
    (hsolve : cell.solve targets previous = .ok solutions) {index : Nat} {group : Group ℝ}
    {target : Target ℝ} {solution : Solution ℝ} (hgroup : cell.groups[index]? = some group)
    (htarget : targets[index]? = some target) (hsolution : solutions[index]? = some solution)
    {pose : Pose ℝ} {forced : Option Configuration} {motion : Motion}
    (hgoal : target.goal = .cartesian pose forced motion)
    (hreproduces : group.arm.solver.Reproduces (Arm.flangeFor (group.mount target cell.base)
      solution.frame pose target.tool.tcp))
    (hfaults : solution.faults = []) :
    solution.planes.getLast? = some solution.tcp ∧
      solution.tcp.Same (solution.frame * pose) := by
  obtain ⟨hcount, hframes⟩ := checked_of_solve hsolve
  obtain ⟨held, asked, coupled, hheld, hasked, rfl, _⟩ :=
    exists_solve_of_getElem? hcount hframes hsolve hsolution
  obtain rfl := Option.some.inj (hgroup.symm.trans hheld)
  obtain rfl := Option.some.inj (htarget.symm.trans hasked)
  have hrigid := hcell.groups group (List.mem_of_getElem? hgroup)
  have hframe := (hcell.of_solve htargets hsolve _ (List.mem_of_getElem? hsolution)).2
  have harm := (List.append_eq_nil_iff.mp hfaults).1
  have htcp : (group.solve index target coupled (previous.bind (·[index]?)) cell.base).tcp =
      (group.arm.solve target
        (group.solve index target coupled (previous.bind (·[index]?)) cell.base).frame
        ((previous.bind (·[index]?)).map (·.take group.arm.axisCount))
        (Group.armParent cell.base group.externals
          ((Group.solveMechanisms cell.base group.externals target.external).map
            Solution.tcp))).tcp * target.tool.tcp := by
    rw [Solution.tcp, Group.solve, List.getLastD_concat]
  refine ⟨group.planes_getLast? _ _ _ _ _, ?_⟩
  rw [htcp]
  exact Arm.same_tcp_solve (hrigid.mount hcell.base) hframe
    (htargets target (List.mem_of_getElem? htarget)) hgoal hreproduces harm

/-! ### An arm stretched out -/

/-- A length along X and a turn about it. -/
noncomputable def alongX (length angle : ℝ) : Pose ℝ :=
  ⟨⟨length, 0, 0⟩, .aboutX angle⟩

theorem rigid_alongX (length angle : ℝ) : (alongX length angle).Rigid :=
  Rotation.proper_aboutX angle

theorem alongX_zero : alongX 0 0 = 1 := by
  rw [alongX, Rotation.aboutX_zero]
  rfl

theorem alongX_mul (length angle length' angle' : ℝ) :
    alongX length angle * alongX length' angle' = alongX (length + length') (angle + angle') := by
  simp only [alongX, Pose.mul_def, Rotation.aboutX_apply, Rotation.aboutX_mul, Vec3.add_def,
    add_zero]

theorem transform_zero_eq_alongX (length twist : ℝ) :
    (⟨length, 0, twist⟩ : Link ℝ).transform 0 = alongX length twist :=
  Link.transform_zero ⟨length, 0, twist⟩

theorem norm_sub_alongX (a b : ℝ) : ((⟨a, 0, 0⟩ : Vec3 ℝ) - ⟨b, 0, 0⟩).norm = |a - b| := by
  have hsquare : ((⟨a, 0, 0⟩ : Vec3 ℝ) - ⟨b, 0, 0⟩).normSq = (a - b) ^ 2 := by
    rw [Vec3.sub_def, Vec3.normSq, Vec3.dot]
    ring
  rw [Vec3.norm, hsquare]
  exact Real.sqrt_sq_eq_abs _

/-- Three links of length one, and a wrist in one point. -/
noncomputable def plainWrist : SphericalWrist ℝ :=
  ⟨![1, 1, 1, 0, 0, 0], fun _ ↦ 0⟩

noncomputable def plainArm : Arm ℝ :=
  .preset "Plain" .abb .sphericalWrist
    [.revolute 1 0 (-4) 4 1, .revolute 1 0 (-4) 4 1, .revolute 1 0 (-4) 4 1,
      .revolute 0 0 (-4) 4 1, .revolute 0 0 (-4) 4 1, .revolute 0 0 (-4) 4 1] 1

/-- As far along X as the arm reaches, the hand turned round. -/
noncomputable def outstretched : Pose ℝ :=
  ⟨⟨3, 0, 0⟩, ⟨0, 0, 0, 1⟩⟩

theorem solver_plainArm : plainArm.solver = .sphericalWrist plainWrist := by
  unfold plainArm Arm.preset Arm.solverFor Solver.ofLinks plainWrist
  dsimp only
  congr 2
  · funext i
    fin_cases i <;> rfl
  · funext i
    fin_cases i <;> rfl

theorem links_plainWrist : plainWrist.links =
    [⟨1, 0, Real.pi / 2⟩, ⟨1, 0, 0⟩, ⟨1, 0, Real.pi / 2⟩, ⟨0, 0, -(Real.pi / 2)⟩,
      ⟨0, 0, Real.pi / 2⟩, ⟨0, 0, 0⟩] := by
  rw [← Exact.quarterTurn_eq]
  rfl

theorem forward_plainWrist :
    (plainWrist.forward [0, 0, 0, 0, Real.pi, 0]).getLast? = some outstretched := by
  have hbend : (⟨0, 0, Real.pi / 2⟩ : Link ℝ).transform Real.pi =
      alongX 0 (-(Real.pi / 2)) * ⟨0, .aboutZ Real.pi⟩ := by
    rw [Link.transform, alongX, Pose.mul_def, Pose.mul_def, Rotation.aboutZ_pi_mul_aboutX]
    ext1
    · show (0 : Vec3 ℝ) + (Rotation.aboutZ Real.pi).apply 0 =
        0 + (Rotation.aboutX (-(Real.pi / 2))).apply 0
      rw [Rotation.apply_zero, Rotation.apply_zero]
    · rfl
  have hhand : alongX 3 (Real.pi / 2) * (alongX 0 (-(Real.pi / 2)) * ⟨0, .aboutZ Real.pi⟩) =
      outstretched := by
    rw [← Pose.mul_assoc (rigid_alongX _ _) (rigid_alongX _ _), alongX_mul, add_zero,
      add_neg_cancel, Rotation.aboutZ_eq, Real.cos_pi_div_two, Real.sin_pi_div_two, alongX,
      Rotation.aboutX_zero, Pose.mul_def, one_mul, Rotation.one_apply, add_zero]
    rfl
  have hlength : (1 + 1 + 1 + 0 : ℝ) = 3 := by norm_num
  have htwist : Real.pi / 2 + 0 + Real.pi / 2 + -(Real.pi / 2) = Real.pi / 2 := by ring
  rw [SphericalWrist.forward, links_plainWrist]
  simp only [chain, chainFrom, List.getLast?_cons, List.getLast?_nil, Option.getD_some,
    Option.getD_none, transform_zero_eq_alongX, Pose.one_mul, alongX_mul, hlength, htwist, hbend,
    hhand, alongX_zero, Pose.mul_one]

theorem wristCentre_outstretched : plainWrist.wristCentre outstretched = ⟨3, 0, 0⟩ := by
  have hnone : outstretched.zAxis.scale (0 : ℝ) = 0 := by
    ext <;> exact mul_zero _
  exact (congrArg (outstretched.position - ·) hnone).trans (sub_zero _)

theorem hypot_outstretched : Scalar.hypot (3 : ℝ) 0 = 3 := by
  rw [Exact.hypot_eq, zero_pow two_ne_zero, add_zero]
  exact Real.sqrt_sq zero_le_three

theorem axisTwo_outstretched : plainWrist.axisTwo ⟨3, 0, 0⟩ 3 = ⟨1, 0, 0⟩ := by
  have hfar : (Scalar.epsilon : ℝ) < 3 := by norm_num [Scalar.epsilon]
  rw [SphericalWrist.axisTwo, if_pos hfar]
  ext <;> simp [plainWrist]

/-- Facing its wrist the arm is straight, however its elbow is mirrored. -/
theorem position_outstretched (elbow : Bool) :
    ∃ turn : ℝ, (turn : Real.Angle) = 0 ∧
      plainWrist.position ⟨3, 0, 0⟩ false elbow = ([0, 0, turn], true) := by
  have hspan : ((⟨3, 0, 0⟩ : Vec3 ℝ) - ⟨1, 0, 0⟩).norm = 2 := by
    rw [norm_sub_alongX]
    norm_num
  have htriangle : plainWrist.elbowTriangle 2 = ((0, Real.pi), true) := by
    simp [SphericalWrist.elbowTriangle, plainWrist, SphericalWrist.forearm, triangleAngle?,
      Exact.hypot_eq, Exact.isFinite_eq_true, Exact.two_eq, Exact.abs_eq, Exact.arccos_eq]
    norm_num
  have hforearm : Scalar.arctan2 (plainWrist.lengths 2) (plainWrist.offsets 3) = Real.pi / 2 :=
    Exact.arctan2_one_zero
  have hbase : Scalar.arctan2 (0 : ℝ) 3 = 0 := Exact.arctan2_zero_of_nonneg (by norm_num)
  have helevation : Scalar.arctan2 (0 - 0) (3 - plainWrist.lengths 0) = 0 := by
    rw [sub_zero]
    exact Exact.arctan2_zero_of_nonneg (by norm_num [plainWrist])
  simp only [SphericalWrist.position, hypot_outstretched, axisTwo_outstretched,
    Bool.false_eq_true, if_false, hspan, htriangle, hforearm, hbase, helevation,
    Exact.quarterTurn_eq]
  cases elbow
  · exact ⟨0, Real.Angle.coe_zero, by norm_num; ring⟩
  · refine ⟨-(2 * Real.pi), ?_, by norm_num; ring⟩
    rw [Real.Angle.coe_neg, Real.Angle.coe_two_pi, neg_zero]

/-- Turned away from its wrist the arm is too short. -/
theorem position_outstretched_shoulder (elbow : Bool) :
    (plainWrist.position ⟨3, 0, 0⟩ true elbow).2 = false := by
  have hspan : ((⟨-3, -0, 0⟩ : Vec3 ℝ) - ⟨1, 0, 0⟩).norm = 4 := by
    rw [neg_zero, norm_sub_alongX]
    norm_num
  have hopen : (plainWrist.elbowTriangle 4).2 = false := by
    simp [SphericalWrist.elbowTriangle, plainWrist, SphericalWrist.forearm, triangleAngle?,
      Exact.hypot_eq, Exact.isFinite_eq_true, Exact.two_eq, Exact.abs_eq]
    norm_num
  simp only [SphericalWrist.position, hypot_outstretched, axisTwo_outstretched, if_true, hspan,
    hopen]

theorem wristRotation_outstretched {turn : ℝ} (hturn : (turn : Real.Angle) = 0) :
    plainWrist.wristRotation outstretched [0, 0, turn] =
      ⟨⟨-1, 0, 0⟩, ⟨0, 1, 0⟩, ⟨0, 0, -1⟩⟩ := by
  have hturned : Angle.Turned [0, 0, turn] [0, 0, 0] :=
    .cons rfl (.cons rfl (.cons (hturn.trans Real.Angle.coe_zero.symm) .nil))
  have hstraight : chainEnd (plainWrist.links.take 3) [0, 0, 0] = alongX 3 Real.pi := by
    rw [links_plainWrist]
    simp only [List.take, chainEnd, chain, chainFrom, List.getLastD_cons, List.getLastD_nil,
      transform_zero_eq_alongX, Pose.one_mul, alongX_mul]
    norm_num
  have hend := same_chainEnd (plainWrist.links.take 3) hturned
  rw [SphericalWrist.wristRotation, hend.2.basis, hstraight, alongX, Rotation.aboutX_eq,
    Real.cos_pi_div_two, Real.sin_pi_div_two]
  simp [Rotation.basis, outstretched, Basis.relativeTo, Vec3.dot]

theorem wristAngles_outstretched (positive : Bool) :
    wristAngles (⟨⟨-1, 0, 0⟩, ⟨0, 1, 0⟩, ⟨0, 0, -1⟩⟩ : Basis ℝ) positive =
      ([0, Real.pi, 0], []) := by
  have hbent : ¬ Scalar.abs ((-1 : ℝ) - 1) < singularityTolerance := by
    rw [Exact.abs_eq]
    norm_num [singularityTolerance]
  have hsine : Scalar.sqrt (Scalar.larger ((1 : ℝ) - -1 * -1) 0) = 0 := by
    rw [Exact.larger_eq_max]
    norm_num
    exact Real.sqrt_zero
  simp only [wristAngles, if_neg hbent, hsine, mul_zero, Exact.arctan2_zero_of_nonneg le_rfl,
    Exact.arctan2_zero_of_neg (neg_one_lt_zero : (-1 : ℝ) < 0)]

theorem inverse_outstretched {configuration : Configuration}
    (hshoulder : configuration.includes .shoulder = false) :
    ∃ turn : ℝ, (turn : Real.Angle) = 0 ∧ plainWrist.inverse outstretched configuration =
      ⟨[0, 0, turn, 0, Real.pi, 0].map settle, []⟩ := by
  have haside : ¬ Scalar.hypot (3 : ℝ) 0 < plainWrist.lengths 0 + singularityTolerance := by
    rw [hypot_outstretched]
    norm_num [plainWrist, singularityTolerance]
  obtain ⟨turn, hturn, hposition⟩ := position_outstretched (configuration.includes .elbow)
  refine ⟨turn, hturn, ?_⟩
  simp only [SphericalWrist.inverse, wristCentre_outstretched, hshoulder, hposition,
    wristRotation_outstretched hturn, wristAngles_outstretched, haside, if_false, if_true,
    List.append_nil, List.cons_append, List.nil_append]

theorem faults_inverse_outstretched {configuration : Configuration}
    (hshoulder : configuration.includes .shoulder = true) :
    (plainWrist.inverse outstretched configuration).faults ≠ [] := by
  simp [SphericalWrist.inverse, wristCentre_outstretched, hshoulder,
    position_outstretched_shoulder]

theorem reproduces_outstretched : plainArm.solver.Reproduces outstretched := by
  intro configuration redundancy hfaults
  rw [solver_plainArm, Solver.inverse] at hfaults ⊢
  cases hshoulder : configuration.includes .shoulder with
  | true => exact absurd hfaults (faults_inverse_outstretched hshoulder)
  | false =>
    obtain ⟨turn, hturn, hinverse⟩ := inverse_outstretched hshoulder
    have hturned : Angle.Turned [0, 0, turn, 0, Real.pi, 0] [0, 0, 0, 0, Real.pi, 0] :=
      .cons rfl (.cons rfl (.cons (hturn.trans Real.Angle.coe_zero.symm)
        (Angle.turned_refl [0, Real.pi, 0])))
    have hsame := Solver.same_forward (.sphericalWrist plainWrist)
      ((turned_settle _).trans hturned)
    rw [hinverse]
    exact exists_getLast?_same hsame forward_plainWrist

/-- A straight move to where the arm is stretched out. -/
noncomputable def stretching : Target ℝ :=
  .ofGoal (.cartesian outstretched none .linear)

theorem flangeFor_stretching :
    Arm.flangeFor (1 * plainArm.base) 1 outstretched stretching.tool.tcp = outstretched := by
  have hbase : 1 * plainArm.base = 1 := Pose.one_mul 1
  rw [hbase]
  exact Arm.flangeFor_one outstretched

theorem faults_solve_stretching :
    (plainArm.solve stretching 1 none 1).faults = [] := by
  have hposition : plainArm.position stretching (1 * plainArm.base) 1 none = plainArm.reach
      (Arm.flangeFor (1 * plainArm.base) 1 outstretched stretching.tool.tcp) none none := rfl
  obtain ⟨turn, -, hinverse⟩ := @inverse_outstretched .empty rfl
  have hreach : plainArm.reach outstretched none none =
      ⟨[0, 0, turn, 0, Real.pi, 0].map settle, .empty, []⟩ := by
    simp only [Arm.reach, solver_plainArm, Solver.inverse, Option.getD_none, hinverse]
  have hinside : ∀ value : ℝ, ∀ length : ℝ,
      (Joint.revolute length 0 (-4) 4 1).isInRange (settle value) = true := by
    intro value length
    obtain ⟨hlow, hhigh⟩ := Angle.normalize_mem_Ioc value
    have hpi : Real.pi ≤ 4 := Real.pi_le_four
    rw [settle_eq_normalize, Joint.isInRange, Bool.and_eq_true, decide_eq_true_iff,
      decide_eq_true_iff]
    have htolerance : (0 : ℝ) ≤ (Joint.revolute length 0 (-4) 4 1).tolerance := by
      simp only [Joint.tolerance, Joint.revolute]
      norm_num
    simp only [Joint.revolute] at htolerance ⊢
    constructor <;> linarith
  have hranges : outOfRange plainArm.joints ([0, 0, turn, 0, Real.pi, 0].map settle) = [] := by
    rw [outOfRange_eq_nil_iff]
    simp [plainArm, Arm.preset, hinside]
  rw [flangeFor_stretching, hreach] at hposition
  simp only [Arm.solve, hposition, hranges, List.map_nil, List.append_nil]

theorem Cell.solve_reaches_outstretched :
    ∃ solution, (Cell.single plainArm).solve [stretching] none = .ok [solution] ∧
      solution.faults = [] ∧ solution.planes.getLast? = some solution.tcp ∧
      solution.tcp.Same (solution.frame * outstretched) := by
  have hcell : (Cell.single plainArm).Rigid := by
    refine ⟨Pose.rigid_one, fun group hgroup ↦ ?_⟩
    obtain rfl := List.mem_singleton.mp hgroup
    exact ⟨Pose.rigid_one, fun _ hmechanism ↦ by cases hmechanism⟩
  have htargets : ∀ target ∈ [stretching], target.Rigid := by
    intro target htarget
    obtain rfl := List.mem_singleton.mp htarget
    refine ⟨fun hgoal ↦ ?_, Pose.rigid_one, Pose.rigid_one⟩
    cases hgoal
    simp [Pose.Rigid, Rotation.Proper, Rotation.dot, outstretched]
  have hsolve : (Cell.single plainArm).solve [stretching] none =
      .ok [Group.solve ⟨plainArm, []⟩ 0 stretching none none 1] := rfl
  have hgroup : (Cell.single plainArm).groups[0]? = some ⟨plainArm, []⟩ := rfl
  have hgoal : stretching.goal = .cartesian outstretched none .linear := rfl
  have hfaults : (Group.solve ⟨plainArm, []⟩ 0 stretching none none 1).faults = [] :=
    List.append_eq_nil_iff.mpr ⟨faults_solve_stretching, rfl⟩
  have hreproduces : plainArm.solver.Reproduces (Arm.flangeFor
      (Group.mount ⟨plainArm, []⟩ stretching (Cell.single plainArm).base)
      (Group.solve ⟨plainArm, []⟩ 0 stretching none none 1).frame outstretched
      stretching.tool.tcp) := by
    have hmount : Group.mount ⟨plainArm, []⟩ stretching (Cell.single plainArm).base =
      1 * plainArm.base := rfl
    have hframe : (Group.solve ⟨plainArm, []⟩ 0 stretching none none 1).frame = 1 := rfl
    rw [hmount, hframe, flangeFor_stretching]
    exact reproduces_outstretched
  exact ⟨_, hsolve, hfaults, Cell.solve_reaches_target hcell htargets hsolve hgroup rfl rfl hgoal
    hreproduces hfaults⟩

end Toolpath
