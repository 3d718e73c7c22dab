import Toolpath.Proofs.Exact.Offset
import Toolpath.Proofs.Exact.Redundant
import Toolpath.Proofs.Links

/-!
Which parameters of an arm have an influence, over exact numbers. A chain shows every length and
every offset of its links (`chainFrom_eq_iff`), so that two arms of one topology have the same chains
only where all entries of their joints are the same. The inverse reads some of the entries alone, and
the two can disagree about an arm (`Arm.inverse_eq_and_forward_eq_iff`). The entries that a topology
names determine the inverse of arms with a spherical wrist; the other solvers read further ones
(`Topology.named_determine_inverse_iff`).
-/

set_option autoImplicit false
set_option relaxedAutoImplicit false

namespace Toolpath

/-! ### Entries that the chain shows -/

theorem Link.transform_eq_iff {link other : Link ℝ} (htwist : link.twist = other.twist)
    (angle : ℝ) : link.transform angle = other.transform angle ↔
      link.length = other.length ∧ link.offset = other.offset := by
  constructor
  · intro h
    have hposition := congrArg Pose.position h
    rw [transform_eq, transform_eq] at hposition
    have hcos : link.length * Real.cos angle = other.length * Real.cos angle :=
      congrArg Vec3.x hposition
    have hsin : link.length * Real.sin angle = other.length * Real.sin angle :=
      congrArg Vec3.y hposition
    refine ⟨?_, congrArg Vec3.z hposition⟩
    linear_combination Real.cos angle * hcos + Real.sin angle * hsin +
      (other.length - link.length) * Real.sin_sq_add_cos_sq angle
  · rintro ⟨hlength, hoffset⟩
    rw [transform_eq, transform_eq, htwist, hlength, hoffset]

theorem Pose.Rigid.mul_right_injective {start : Pose ℝ} (h : start.Rigid) {a b : Pose ℝ}
    (heq : start * a = start * b) : a = b := by
  have hback : start.inverse * (start * a) = start.inverse * (start * b) := by rw [heq]
  rwa [← Pose.mul_assoc h.inverse h, ← Pose.mul_assoc h.inverse h, h.inverse_mul, Pose.one_mul,
    Pose.one_mul] at hback

/-- A chain shows every length and every offset of the links that it follows. -/
theorem chainFrom_eq_iff {links others : List (Link ℝ)}
    (htwists : links.map Link.twist = others.map Link.twist) {angles : List ℝ} :
    ∀ {start : Pose ℝ}, start.Rigid →
      (chainFrom start links angles = chainFrom start others angles ↔
        (links.take angles.length).map Link.length = (others.take angles.length).map Link.length ∧
          (links.take angles.length).map Link.offset =
            (others.take angles.length).map Link.offset) := by
  induction links generalizing others angles with
  | nil =>
    intro start _
    rw [List.map_eq_nil_iff.mp htwists.symm]
    simp
  | cons link links ih =>
    intro start hstart
    cases others with
    | nil => simp at htwists
    | cons first rest =>
      rw [List.map_cons, List.map_cons, List.cons.injEq] at htwists
      cases angles with
      | nil => simp [chainFrom]
      | cons angle angles =>
        have hnext := hstart.mul (link.rigid_transform angle)
        have hhead : start * link.transform angle = start * first.transform angle ↔
            link.length = first.length ∧ link.offset = first.offset := by
          rw [← Link.transform_eq_iff htwists.1 angle]
          exact ⟨hstart.mul_right_injective, fun h ↦ by rw [h]⟩
        simp only [chainFrom, List.cons.injEq, List.length_cons, List.take_succ_cons,
          List.map_cons]
        constructor
        · rintro ⟨hfirst, hrest⟩
          rw [← hfirst, ih htwists.2 hnext] at hrest
          have hentries := hhead.mp hfirst
          exact ⟨⟨hentries.1, hrest.1⟩, hentries.2, hrest.2⟩
        · rintro ⟨⟨hlength, hlengths⟩, hoffset, hoffsets⟩
          have hfirst := hhead.mpr ⟨hlength, hoffset⟩
          rw [← hfirst, ih htwists.2 hnext]
          exact ⟨rfl, hlengths, hoffsets⟩

/-- Two arms of one topology have the same chain at given axis values exactly where their tables of
links are the same up to the last axis with a value. -/
theorem forward_solverFor_eq_iff {topology : Topology} {joints others : List (Joint ℝ)}
    (hjoints : joints.length = topology.axisCount) (hothers : others.length = topology.axisCount)
    (values : List ℝ) :
    (Arm.solverFor topology joints).forward values =
        (Arm.solverFor topology others).forward values ↔
      (topology = .redundant ∨ (joints.take values.length).map Joint.length =
        (others.take values.length).map Joint.length) ∧
      (joints.take values.length).map Joint.offset =
        (others.take values.length).map Joint.offset := by
  rw [Solver.forward_eq_chain, Solver.forward_eq_chain, chain, chain,
    chainFrom_eq_iff (map_twist_links_solverFor topology joints others) Pose.rigid_one]
  simp only [List.map_take, map_offset_links_solverFor hjoints, map_offset_links_solverFor hothers]
  by_cases hredundant : topology = .redundant
  · subst hredundant
    simp [map_length_links_redundant joints others]
  · rw [map_length_links_solverFor hjoints hredundant,
      map_length_links_solverFor hothers hredundant, or_iff_right hredundant]

/-! ### Influence -/

/-- Two arms of one topology whose joints agree in the parameters that the solver names. Their
inverse agrees as long as the further entries that it reads agree too. Their chains agree only where
the joints have the same entries all over, named or not. -/
theorem Arm.inverse_eq_and_forward_eq_iff {name otherName : String}
    {manufacturer otherManufacturer : Manufacturer} {topology : Topology}
    {joints others : List (Joint ℝ)} {base otherBase : Pose ℝ} {payload otherPayload : ℝ}
    {arm other : Arm ℝ}
    (harm : Arm.build name manufacturer topology joints base payload = .ok arm)
    (hother : Arm.build otherName otherManufacturer topology others otherBase otherPayload =
      .ok other)
    (hlengths : AgreeAt Joint.length topology.namedLengths joints others)
    (hoffsets : AgreeAt Joint.offset topology.namedOffsets joints others) :
    (AgreeAt Joint.length topology.furtherLengths joints others →
      AgreeAt Joint.offset topology.furtherOffsets joints others →
      ∀ flange configuration redundancy,
        arm.solver.inverse flange configuration redundancy =
          other.solver.inverse flange configuration redundancy) ∧
    ∀ values, arm.solver.forward values = other.solver.forward values ↔
      (topology = .redundant ∨ (joints.take values.length).map Joint.length =
        (others.take values.length).map Joint.length) ∧
      (joints.take values.length).map Joint.offset =
        (others.take values.length).map Joint.offset := by
  obtain ⟨hcount, hsolver, -⟩ := Arm.of_build harm
  obtain ⟨hotherCount, hotherSolver, -⟩ := Arm.of_build hother
  rw [hsolver, hotherSolver]
  refine ⟨fun hfurtherLengths hfurtherOffsets flange configuration redundancy ↦ ?_,
    forward_solverFor_eq_iff hcount hotherCount⟩
  exact inverse_solverFor_of_entries (hlengths.append hfurtherLengths)
    (hoffsets.append hfurtherOffsets) flange configuration redundancy

/-- Joints with the given lengths and offsets. -/
noncomputable def tableJoints (lengths offsets : List ℝ) : List (Joint ℝ) :=
  List.zipWith (fun length offset ↦ .revolute length offset (-1) 1 1) lengths offsets

/-- Six joints of length one, the second one with the given offset. -/
noncomputable def shiftedJoints (offset : ℝ) : List (Joint ℝ) :=
  tableJoints [1, 1, 1, 1, 1, 1] [0, offset, 0, 0, 0, 0]

/-- An offset that a spherical wrist does not name leaves the inverse as it is and moves the
chain. -/
theorem Arm.inverse_eq_and_forward_ne_shifted :
    ∃ arm other : Arm ℝ,
      Arm.build "Plain" .other .sphericalWrist (shiftedJoints 0) 1 1 = .ok arm ∧
      Arm.build "Shifted" .other .sphericalWrist (shiftedJoints 1) 1 1 = .ok other ∧
      AgreeAt Joint.length Topology.sphericalWrist.namedLengths (shiftedJoints 0)
        (shiftedJoints 1) ∧
      AgreeAt Joint.offset Topology.sphericalWrist.namedOffsets (shiftedJoints 0)
        (shiftedJoints 1) ∧
      (∀ flange configuration redundancy,
        arm.solver.inverse flange configuration redundancy =
          other.solver.inverse flange configuration redundancy) ∧
      ∀ values, 2 ≤ values.length → arm.solver.forward values ≠ other.solver.forward values := by
  have hlengths : AgreeAt Joint.length Topology.sphericalWrist.namedLengths (shiftedJoints 0)
      (shiftedJoints 1) := by
    simp [AgreeAt, Topology.namedLengths, shiftedJoints, tableJoints, Joint.revolute]
  have hoffsets : AgreeAt Joint.offset Topology.sphericalWrist.namedOffsets (shiftedJoints 0)
      (shiftedJoints 1) := by
    simp [AgreeAt, Topology.namedOffsets, shiftedJoints, tableJoints]
  have hboth := inverse_eq_and_forward_eq_iff (rfl : Arm.build "Plain" .other .sphericalWrist
    (shiftedJoints 0) 1 1 = .ok _) (rfl : Arm.build "Shifted" .other .sphericalWrist
    (shiftedJoints 1) 1 1 = .ok _) hlengths hoffsets
  refine ⟨_, _, rfl, rfl, hlengths, hoffsets,
    hboth.1 (List.forall_mem_nil _) (List.forall_mem_nil _), fun values hcount hforward ↦ ?_⟩
  have hentries := ((hboth.2 values).mp hforward).2
  -- the second entries are among those that the chain shows
  have hsecond := congrArg (·[1]?) hentries
  simp [shiftedJoints, tableJoints, Joint.revolute, Nat.lt_of_succ_le hcount] at hsecond

/-! ### Entries that are not named -/

/-- Straight above the base axis. -/
noncomputable def overhead : Pose ℝ := ⟨⟨0, 0, 5⟩, 1⟩

namespace RedundantArm

theorem outOfReach_mem_axisTwo_iff {centre p : Vec3 ℝ} {shoulder : Bool} (hp : 1 ≤ p.z) :
    Fault.outOfReach ∈ (axisTwo centre p shoulder).2 ↔ Scalar.hypot p.x p.z < |centre.z| := by
  have hradius : 1 ≤ Scalar.hypot p.x p.z :=
    hp.trans ((le_abs_self _).trans (Exact.hypot_comm p.z p.x ▸ Exact.abs_le_hypot p.z p.x))
  have htolerance : singularityTolerance < Scalar.hypot p.x p.z :=
    lt_of_lt_of_le (by norm_num [singularityTolerance]) hradius
  have hratio : 1 < |centre.z / Scalar.hypot p.x p.z| ↔ Scalar.hypot p.x p.z < |centre.z| := by
    rw [abs_div, abs_of_pos (zero_lt_one.trans_le hradius),
      one_lt_div (zero_lt_one.trans_le hradius)]
  unfold axisTwo
  dsimp only
  rw [if_pos htolerance, Exact.abs_eq]
  simp [hratio]

theorem outOfReach_not_mem_axisOne (centre p : Vec3 ℝ) (q2 : ℝ) :
    Fault.outOfReach ∉ (axisOne centre p q2).2 := by
  simp [axisOne]

theorem outOfReach_not_mem_wristAngles (residual : Basis ℝ) (positive : Bool) :
    Fault.outOfReach ∉ (wristAngles residual positive).2 := by
  rw [wristAngles]
  split_ifs <;> simp

/-- With an elbow of 3 and 4 and the redundant axis at a quarter turn, the flange above the base is
in reach from an offset of axis 4 of the length 4 on. -/
theorem outOfReach_mem_overhead_iff {arm : RedundantArm ℝ} (h0 : arm.offsets 0 = 0)
    (h2 : arm.offsets 2 = 3) (h4 : arm.offsets 4 = 4) (h6 : arm.offsets 6 = 0) :
    Fault.outOfReach ∈ (arm.inverse overhead .empty Scalar.quarterTurn).faults ↔
      Scalar.hypot (arm.offsets 3) 3 < 5 := by
  have hcentre : arm.wristCentre overhead = ⟨0, 0, 5⟩ := by
    simp [wristCentre, h0, h6, overhead, Vec3.sub_def, Vec3.scale]
  have hfour : arm.axisFour ⟨0, 0, 5⟩ (Configuration.empty.includes .elbow) =
      (Scalar.quarterTurn, []) := by
    have harccos : Exact.mirrored (Configuration.empty.includes .elbow) (Real.arccos 0) =
        Scalar.quarterTurn := by
      rw [Real.arccos_zero, Exact.quarterTurn_eq]
      rfl
    rw [axisFour_eq (by norm_num) (x := 0) (by norm_num [h2, h4, Vec3.normSq, Vec3.dot]), harccos]
  have hpoint : arm.shoulderPoint Scalar.quarterTurn Scalar.quarterTurn =
      ⟨arm.offsets 3, -4, 3⟩ := by
    simp [shoulderPoint_eq, h2, h4, Exact.cos_quarterTurn, Exact.sin_quarterTurn]
  rw [inverse_eq]
  simp only [hcentre, hfour, hpoint, List.mem_append]
  rw [outOfReach_mem_axisTwo_iff (by norm_num), abs_of_pos (by norm_num)]
  simp [outOfReach_not_mem_axisOne, outOfReach_not_mem_wristAngles]

end RedundantArm

/-- Beside the base axis, the flange upright. -/
noncomputable def beside : Pose ℝ := ⟨⟨1, 0, 1⟩, 1⟩

namespace OffsetWrist

/-- Upper arm, forearm and hand of length one; apart from them only the first link may have a
length. -/
structure Led (arm : OffsetWrist ℝ) : Prop where
  upper : arm.lengths 1 = 1
  forearm : arm.lengths 2 = 1
  hand : arm.offsets 5 = 1
  lengths : arm.lengths 4 = 0 ∧ arm.lengths 5 = 0
  offsets : arm.offsets 0 = 0 ∧ arm.offsets 3 = 0 ∧ arm.offsets 4 = 0

theorem outOfReach_not_mem_axisSix (flange : Pose ℝ) (q1 q5 : ℝ) :
    Fault.outOfReach ∉ (axisSix flange q1 q5).2 := by
  unfold axisSix
  dsimp only
  split_ifs <;> simp

theorem rigid_beside : beside.Rigid := Rotation.proper_one

namespace Led

variable {arm : OffsetWrist ℝ} (h : arm.Led)

include h

theorem wristCentre_beside : arm.wristCentre beside = ⟨1, 0, 0⟩ := by
  have haxis : beside.zAxis = Vec3.zAxis := Rotation.one_apply _
  rw [wristCentre, haxis, h.hand]
  simp [beside, Vec3.sub_def, Vec3.scale, Vec3.zAxis]

theorem axisOne_beside : arm.axisOne beside false = (Real.pi, []) := by
  have hcentre := h.wristCentre_beside
  have hhypot : Scalar.hypot (1 : ℝ) 0 = 1 := by simp [Exact.hypot_eq]
  have hbeside : arm.Beside (arm.wristCentre beside) := by
    rw [hcentre]
    exact ⟨by rw [hhypot]; norm_num [singularityTolerance], by simp [h.offsets.2.1]⟩
  rw [hbeside.axisOne_eq, hcentre, h.offsets.2.1, zero_div, Real.arccos_zero,
    Exact.arctan2_zero_of_nonneg zero_le_one, Exact.quarterTurn_eq, zero_add]
  exact congrArg (·, []) (add_halves Real.pi)

theorem axisFive_beside : arm.axisFive beside Real.pi true = (Scalar.quarterTurn, []) := by
  have hratio : (beside.position.x * Scalar.sin Real.pi - beside.position.y * Scalar.cos Real.pi -
      arm.offsets 3) / arm.offsets 5 = 0 := by
    show ((1 : ℝ) * Real.sin Real.pi - 0 * Real.cos Real.pi - _) / _ = 0
    rw [Real.sin_pi, h.offsets.2.1]
    norm_num
  unfold axisFive
  dsimp only
  rw [hratio, clampedArccos_eq (by norm_num), Real.arccos_zero, Exact.quarterTurn_eq]
  rfl

theorem applyPoint_hand (q5 q6 : ℝ) : (arm.hand q5 q6).applyPoint ⟨0, 0, -arm.offsets 5⟩ = 0 := by
  rw [OffsetWrist.hand, Pose.applyPoint_mul (rigid_link _ _ _ _) (rigid_link _ _ _ _)]
  simp only [Link.applyPoint_transform, link, h.lengths.1, h.lengths.2, h.offsets.2.2, h.hand,
    Real.cos_zero, Real.sin_zero]
  ext <;> simp <;> rfl

/-- The first link leads away from the flange. -/
theorem position_forearmPose (q5 q6 : ℝ) :
    (arm.forearmPose beside Real.pi q5 q6).position = ⟨-(1 + arm.lengths 0), 0, 0⟩ := by
  have hbase := rigid_link arm 0 Scalar.quarterTurn Real.pi
  have hhand := arm.rigid_hand q5 q6
  have hforearm : (arm.forearmPose beside Real.pi q5 q6).Rigid :=
    (hbase.inverse.mul rigid_beside).mul hhand.inverse
  have hzero : (arm.forearmPose beside Real.pi q5 q6).applyPoint 0 =
      (arm.forearmPose beside Real.pi q5 q6).position := by
    rw [Pose.applyPoint, Rotation.apply_zero, zero_add]
  have hback := arm.wristCentre_eq beside
  rw [h.wristCentre_beside, ← arm.mul_forearmPose rigid_beside Real.pi q5 q6,
    Pose.applyPoint_mul (hbase.mul hforearm) hhand, h.applyPoint_hand,
    Pose.applyPoint_mul hbase hforearm, hzero, Link.applyPoint_transform] at hback
  simp only [link, h.offsets.1, Exact.cos_quarterTurn, Exact.sin_quarterTurn, Real.cos_pi,
    Real.sin_pi, Vec3.mk.injEq] at hback
  ext
  · linear_combination hback.1
  · linear_combination -hback.2.2
  · linear_combination -hback.2.1

/-- The triangle of upper arm and forearm closes as long as the first link is short. -/
theorem faults_planeAxes (q5 q6 : ℝ) :
    (arm.planeAxes (arm.forearmPose beside Real.pi q5 q6) false).2 =
      if singularityTolerance < |((1 + arm.lengths 0) ^ 2 - 2) / 2| - 1 then [.outOfReach]
      else [] := by
  have hcosine : arm.elbowCosine (arm.forearmPose beside Real.pi q5 q6) =
      ((1 + arm.lengths 0) ^ 2 - 2) / 2 := by
    unfold elbowCosine
    dsimp only
    rw [Exact.hypot_mul_self, h.position_forearmPose, h.upper, h.forearm, Exact.two_eq]
    ring
  rw [← hcosine, ← Exact.abs_eq]
  rfl

theorem outOfReach_mem_beside_iff : Fault.outOfReach ∈ (arm.inverse beside .empty).faults ↔
    singularityTolerance < |((1 + arm.lengths 0) ^ 2 - 2) / 2| - 1 := by
  have hshoulder : Configuration.empty.includes .shoulder = false := rfl
  have helbow : Configuration.empty.includes .elbow = false := rfl
  have hwrist : Configuration.empty.includes .wrist = false := rfl
  rw [inverse_eq]
  simp only [hshoulder, helbow, hwrist, bne_self_eq_false, Bool.not_false, h.axisOne_beside,
    h.axisFive_beside, h.faults_planeAxes, List.mem_append, outOfReach_not_mem_axisSix]
  simp

end Led

end OffsetWrist

/-- An arm with an offset wrist whose first link has a length. -/
noncomputable def ledJoints (length : ℝ) : List (Joint ℝ) :=
  tableJoints [length, 1, 1, 0, 0, 0] [0, 0, 0, 0, 0, 1]

/-- An arm with a redundant axis and an offset of axis 4. -/
noncomputable def crankedJoints (upper offset forearm : ℝ) : List (Joint ℝ) :=
  tableJoints [0, 0, 0, 0, 0, 0, 0] [0, 0, upper, offset, forearm, 0, 0]

theorem outOfReach_mem_ledJoints_iff (length : ℝ) :
    Fault.outOfReach ∈
        ((Arm.solverFor .offsetWrist (ledJoints length)).inverse beside .empty 0).faults ↔
      singularityTolerance < |((1 + length) ^ 2 - 2) / 2| - 1 :=
  OffsetWrist.Led.outOfReach_mem_beside_iff ⟨rfl, rfl, rfl, ⟨rfl, rfl⟩, rfl, rfl, rfl⟩

theorem outOfReach_mem_crankedJoints_iff (offset : ℝ) :
    Fault.outOfReach ∈
        ((Arm.solverFor .redundant (crankedJoints 3 offset 4)).inverse overhead .empty
          Scalar.quarterTurn).faults ↔
      Scalar.hypot offset 3 < 5 :=
  RedundantArm.outOfReach_mem_overhead_iff rfl rfl rfl rfl

/-- The named entries determine the inverse of an arm with a spherical wrist, and of no other
one. -/
theorem Topology.named_determine_inverse_iff (topology : Topology) :
    (∀ joints others : List (Joint ℝ), joints.length = topology.axisCount →
      others.length = topology.axisCount →
      AgreeAt Joint.length topology.namedLengths joints others →
      AgreeAt Joint.offset topology.namedOffsets joints others →
      ∀ flange configuration redundancy,
        (Arm.solverFor topology joints).inverse flange configuration redundancy =
          (Arm.solverFor topology others).inverse flange configuration redundancy) ↔
      topology = .sphericalWrist := by
  constructor
  · intro hall
    cases topology with
    | sphericalWrist => rfl
    | offsetWrist =>
      have hsame := hall (ledJoints 2) (ledJoints 0) rfl rfl
        (by simp [AgreeAt, namedLengths, ledJoints, tableJoints, Joint.revolute])
        (by simp [AgreeAt, namedOffsets, ledJoints, tableJoints, Joint.revolute]) beside .empty 0
      have hfar := outOfReach_mem_ledJoints_iff 2
      rw [hsame, outOfReach_mem_ledJoints_iff 0] at hfar
      norm_num [singularityTolerance] at hfar
    | redundant =>
      have hsame := hall (crankedJoints 3 0 4) (crankedJoints 3 4 4) rfl rfl (List.forall_mem_nil _)
        (by simp [AgreeAt, namedOffsets, crankedJoints, tableJoints, Joint.revolute])
        overhead .empty Scalar.quarterTurn
      have hlevel : Scalar.hypot (0 : ℝ) 3 = 3 :=
        Exact.hypot_eq_of_mul_self (by norm_num) (by norm_num)
      have hcranked : Scalar.hypot (4 : ℝ) 3 = 5 :=
        Exact.hypot_eq_of_mul_self (by norm_num) (by norm_num)
      have hfar := outOfReach_mem_crankedJoints_iff 0
      rw [hsame, outOfReach_mem_crankedJoints_iff 4, hlevel, hcranked] at hfar
      norm_num at hfar
  · rintro rfl joints others _ _ hlengths hoffsets
    exact inverse_solverFor_of_entries (hlengths.append (List.forall_mem_nil _))
      (hoffsets.append (List.forall_mem_nil _))

end Toolpath
