import Toolpath.Proofs.Exact.Nearest
import Toolpath.Proofs.Exact.Triangle

/-!
Arms with an offset wrist over exact numbers. The axes 2, 3 and 4 are parallel to the `hinge` that
axis 1 turns. Axis 1 brings the wrist to its offset along the hinge (`OffsetWrist.dot_axisOne`), and
the axes 5 and 6 leave the hinge where the flange sees it (`OffsetWrist.seenHinge_of_axes`). Between
them stays an upright forearm (`OffsetWrist.upright_forearmPose`), for which the axes 2 to 4 close a
plane triangle. So a branch without faults leads the chain back to the flange
(`OffsetWrist.inverse_exact_of_triangle`). Conversely each axis is found again from the flange
(`OffsetWrist.exists_turned_inverse`).
-/

set_option autoImplicit false
set_option relaxedAutoImplicit false

namespace Toolpath.OffsetWrist

variable {arm : OffsetWrist ℝ}

/-! ### The hinge as seen from the flange -/

/-- The common direction of the axes 2, 3 and 4. -/
noncomputable def hinge (q1 : ℝ) : Vec3 ℝ :=
  ⟨Real.sin q1, -Real.cos q1, 0⟩

/-- The flange as seen from axis 4. -/
noncomputable def hand (arm : OffsetWrist ℝ) (q5 q6 : ℝ) : Pose ℝ :=
  (arm.link 4 (-Scalar.quarterTurn)).transform q5 * (arm.link 5 0).transform q6

theorem rigid_hand (arm : OffsetWrist ℝ) (q5 q6 : ℝ) : (arm.hand q5 q6).Rigid :=
  (rigid_link _ _ _ _).mul (rigid_link _ _ _ _)

/-- The hinge in the coordinates of a flange behind axes at `q5` and `q6`. -/
noncomputable def seenHinge (q5 q6 : ℝ) : Vec3 ℝ :=
  ⟨Real.sin q5 * Real.cos q6, -(Real.sin q5 * Real.sin q6), Real.cos q5⟩

theorem apply_hand_seenHinge (arm : OffsetWrist ℝ) (q5 q6 : ℝ) :
    (arm.hand q5 q6).rotation.apply (seenHinge q5 q6) = Vec3.yAxis := by
  have h5 := Real.sin_sq_add_cos_sq q5
  have h6 := Real.sin_sq_add_cos_sq q6
  rw [hand, Pose.apply_rotation_mul (rigid_link _ _ _ _) (rigid_link _ _ _ _)]
  simp only [Link.apply_rotation_transform, link, seenHinge, Real.cos_neg, Real.sin_neg,
    Exact.cos_quarterTurn, Exact.sin_quarterTurn, Real.cos_zero, Real.sin_zero,
    Vec3.yAxis]
  ext
  · linear_combination Real.sin q5 * Real.cos q5 * h6
  · linear_combination Real.sin q5 ^ 2 * h6 + h5
  · ring

/-- The centre of the wrist, where the axes 5 and 6 meet. -/
noncomputable def wristCentre (arm : OffsetWrist ℝ) (flange : Pose ℝ) : Vec3 ℝ :=
  flange.position - flange.zAxis.scale (arm.offsets 5)

theorem wristCentre_eq (arm : OffsetWrist ℝ) (flange : Pose ℝ) :
    arm.wristCentre flange = flange.applyPoint ⟨0, 0, -arm.offsets 5⟩ := by
  rw [Pose.applyPoint, Vec3.eq_zAxis_scale, Rotation.apply_scale, wristCentre]
  show flange.position - (flange.rotation.apply Vec3.zAxis).scale (arm.offsets 5) = _
  ext <;> simp only [Vec3.sub_def, Vec3.add_def, Vec3.scale] <;> ring

/-- The hand carries the centre of the wrist along. -/
theorem Standard.applyPoint_hand (harm : arm.Standard) (q5 q6 : ℝ) :
    (arm.hand q5 q6).applyPoint ⟨0, 0, -arm.offsets 5⟩ = ⟨0, 0, arm.offsets 4⟩ := by
  rw [OffsetWrist.hand, Pose.applyPoint_mul (rigid_link _ _ _ _) (rigid_link _ _ _ _)]
  simp only [Link.applyPoint_transform, link, harm.lengths.2.2.1, harm.lengths.2.2.2,
    Real.cos_zero, Real.sin_zero]
  congr 1 <;> ring

/-- Axis 1 turns a point about the base axis, from the plane of the axes 2 to 4. -/
theorem Standard.applyPoint_zero (harm : arm.Standard) (q1 : ℝ) (v : Vec3 ℝ) :
    ((arm.link 0 Scalar.quarterTurn).transform q1).applyPoint v =
      ⟨v.x * Real.cos q1 + v.z * Real.sin q1, v.x * Real.sin q1 - v.z * Real.cos q1,
        arm.offsets 0 + v.y⟩ := by
  rw [Link.applyPoint_transform]
  simp only [link, harm.lengths.1, Exact.cos_quarterTurn, Exact.sin_quarterTurn]
  congr 1 <;> ring

theorem apply_link_zero (arm : OffsetWrist ℝ) (q1 : ℝ) :
    ((arm.link 0 Scalar.quarterTurn).transform q1).rotation.apply Vec3.zAxis = hinge q1 := by
  rw [Link.apply_rotation_transform]
  simp [link, Vec3.zAxis, hinge, Exact.cos_quarterTurn, Exact.sin_quarterTurn]

section Hinge

variable {forearm flange : Pose ℝ} {q1 q5 q6 : ℝ}

theorem Standard.wristCentre_mul (harm : arm.Standard) (hrigid : forearm.Rigid) (q1 q5 q6 : ℝ) :
    arm.wristCentre ((arm.link 0 Scalar.quarterTurn).transform q1 * forearm * arm.hand q5 q6) =
      ((arm.link 0 Scalar.quarterTurn).transform q1).applyPoint
        (forearm.applyPoint ⟨0, 0, arm.offsets 4⟩) := by
  have hbase := rigid_link arm 0 Scalar.quarterTurn q1
  rw [wristCentre_eq, Pose.applyPoint_mul (hbase.mul hrigid) (arm.rigid_hand q5 q6),
    harm.applyPoint_hand, Pose.applyPoint_mul hbase hrigid]

theorem applyPoint_z (hrigid : forearm.Rigid)
    (haxis : forearm.rotation.apply Vec3.yAxis = Vec3.zAxis) (v : Vec3 ℝ) :
    (forearm.applyPoint v).z = v.y + forearm.position.z := by
  have hdot := Rotation.Proper.dot_apply hrigid Vec3.yAxis v
  rw [haxis] at hdot
  have hlift : (forearm.rotation.apply v).z = v.y := by
    simpa [Vec3.dot, Vec3.yAxis, Vec3.zAxis] using hdot
  exact congrArg (· + forearm.position.z) hlift

/-- The distance of the wrist along the hinge is that of the forearm in front of it. -/
theorem Standard.dot_wristCentre (harm : arm.Standard) (hrigid : forearm.Rigid)
    (haxis : forearm.rotation.apply Vec3.yAxis = Vec3.zAxis) (q1 q5 q6 : ℝ) :
    (hinge q1).dot (arm.wristCentre ((arm.link 0 Scalar.quarterTurn).transform q1 * forearm *
      arm.hand q5 q6)) = forearm.position.z := by
  have hz := applyPoint_z hrigid haxis ⟨0, 0, arm.offsets 4⟩
  rw [zero_add] at hz
  rw [harm.wristCentre_mul hrigid, harm.applyPoint_zero, hinge, Vec3.dot]
  linear_combination (forearm.applyPoint ⟨0, 0, arm.offsets 4⟩).z *
    Real.sin_sq_add_cos_sq q1 + hz

/-- Behind an upright forearm the flange sees the hinge where its own axes leave it, and the wrist
lies at its offset along the hinge. -/
theorem Standard.hinge_of_upright (harm : arm.Standard) (hupright : arm.Upright forearm)
    (hflange : (arm.link 0 Scalar.quarterTurn).transform q1 * forearm * arm.hand q5 q6 = flange) :
    flange.rotation.inverse.apply (hinge q1) = seenHinge q5 q6 ∧
      (hinge q1).dot (arm.wristCentre flange) = arm.offsets 3 := by
  have hbase := rigid_link arm 0 Scalar.quarterTurn q1
  have hhand := arm.rigid_hand q5 q6
  have hrigid : flange.Rigid := hflange ▸ (hbase.mul hupright.rigid).mul hhand
  have hseen : flange.rotation.apply (seenHinge q5 q6) = hinge q1 := by
    rw [← hflange, Pose.apply_rotation_mul (hbase.mul hupright.rigid) hhand,
      apply_hand_seenHinge, Pose.apply_rotation_mul hbase hupright.rigid, hupright.axis,
      apply_link_zero]
  constructor
  · rw [← hseen, Rotation.Proper.inverse_apply_apply hrigid]
  · rw [← hflange, harm.dot_wristCentre hupright.rigid hupright.axis, hupright.offset]

theorem forearmPose_eq (arm : OffsetWrist ℝ) (flange : Pose ℝ) (q1 q5 q6 : ℝ) :
    arm.forearmPose flange q1 q5 q6 =
      ((arm.link 0 Scalar.quarterTurn).transform q1).inverse * flange *
        (arm.hand q5 q6).inverse := rfl

theorem mul_forearmPose (arm : OffsetWrist ℝ) (hflange : flange.Rigid) (q1 q5 q6 : ℝ) :
    (arm.link 0 Scalar.quarterTurn).transform q1 * arm.forearmPose flange q1 q5 q6 *
      arm.hand q5 q6 = flange := by
  have hbase := rigid_link arm 0 Scalar.quarterTurn q1
  have hhand := arm.rigid_hand q5 q6
  rw [forearmPose_eq, Pose.mul_assoc hbase ((hbase.inverse.mul hflange).mul hhand.inverse),
    Pose.mul_mul_inverse_mul (hbase.inverse.mul hflange) hhand, Pose.mul_inverse_mul hbase]

/-- The forearm that a chain has between axis 1 and the hand, from axis values that agree up to
whole turns. -/
theorem same_forearmPose (arm : OffsetWrist ℝ) (hforearm : forearm.Rigid) {q1' q5' q6' : ℝ}
    (h1 : (q1' : Real.Angle) = q1) (h5 : (q5' : Real.Angle) = q5) (h6 : (q6' : Real.Angle) = q6) :
    (arm.forearmPose ((arm.link 0 Scalar.quarterTurn).transform q1 * forearm * arm.hand q5 q6)
      q1' q5' q6').Same forearm := by
  have hbase := rigid_link arm 0 Scalar.quarterTurn q1
  have hhand := arm.rigid_hand q5 q6
  have hback : ((arm.link 0 Scalar.quarterTurn).transform q1).inverse *
      ((arm.link 0 Scalar.quarterTurn).transform q1 * forearm * arm.hand q5 q6) *
        (arm.hand q5 q6).inverse = forearm := by
    rw [Pose.mul_assoc hbase hforearm, ← Pose.mul_assoc hbase.inverse hbase, hbase.inverse_mul,
      Pose.one_mul, Pose.mul_assoc hforearm hhand, hhand.mul_inverse, Pose.mul_one]
  have hturned : (arm.hand q5' q6').Same (arm.hand q5 q6) :=
    (Link.same_transform _ h5).mul (Link.same_transform _ h6)
  have hsame := ((Link.same_transform (arm.link 0 Scalar.quarterTurn) h1).inverse.mul
    (.refl ((arm.link 0 Scalar.quarterTurn).transform q1 * forearm * arm.hand q5 q6))).mul
      hturned.inverse
  rwa [hback, ← forearmPose_eq] at hsame

/-- The forearm between axis 1 and the hand is upright when the flange sees the hinge where its own
axes leave it and the wrist lies at its offset along the hinge. -/
theorem upright_forearmPose (harm : arm.Standard) (hflange : flange.Rigid)
    (hseen : flange.rotation.inverse.apply (hinge q1) = seenHinge q5 q6)
    (hdot : (hinge q1).dot (arm.wristCentre flange) = arm.offsets 3) :
    arm.Upright (arm.forearmPose flange q1 q5 q6) := by
  have hbase := rigid_link arm 0 Scalar.quarterTurn q1
  have hhand := arm.rigid_hand q5 q6
  have hrigid : (arm.forearmPose flange q1 q5 q6).Rigid :=
    (hbase.inverse.mul hflange).mul hhand.inverse
  have hback := arm.mul_forearmPose hflange q1 q5 q6
  have haxis : (arm.forearmPose flange q1 q5 q6).rotation.apply Vec3.yAxis = Vec3.zAxis := by
    refine Rotation.Proper.apply_injective hbase ?_
    rw [apply_link_zero, ← Rotation.Proper.apply_inverse_apply hflange (hinge q1), hseen,
      ← apply_hand_seenHinge arm q5 q6, ← Pose.apply_rotation_mul hbase hrigid,
      ← Pose.apply_rotation_mul (hbase.mul hrigid) hhand, hback]
  have hoffset := harm.dot_wristCentre hrigid haxis q1 q5 q6
  rw [hback, hdot] at hoffset
  exact ⟨hrigid, haxis, hoffset.symm⟩

end Hinge

/-! ### The axes 1, 5 and 6 -/

section Axes

variable {flange : Pose ℝ} {q1 q5 : ℝ}

theorem dot_sub_scale (u p z : Vec3 ℝ) (length : ℝ) :
    u.dot (p - z.scale length) = u.dot p - length * u.dot z := by
  simp only [Vec3.dot, Vec3.sub_def, Vec3.scale]
  ring

/-- The distance of the wrist along the hinge, by the angle of axis 1 against its direction. -/
theorem dot_hinge_eq (q1 : ℝ) (c : Vec3 ℝ) : (hinge q1).dot c =
    Scalar.hypot c.x c.y * Real.cos (q1 - Scalar.arctan2 c.y c.x - Scalar.quarterTurn) := by
  have hcos := Exact.hypot_mul_cos_arctan2 c.x c.y
  have hsin := Exact.hypot_mul_sin_arctan2 c.x c.y
  rw [Exact.quarterTurn_eq, Real.cos_sub_pi_div_two, Real.sin_sub]
  simp only [hinge, Vec3.dot]
  linear_combination -Real.sin q1 * hcos + Real.cos q1 * hsin

/-- The distance of the wrist across the hinge, negative in front of the base axis. -/
theorem sin_hinge_eq (q1 : ℝ) (c : Vec3 ℝ) :
    Scalar.hypot c.x c.y * Real.sin (q1 - Scalar.arctan2 c.y c.x - Scalar.quarterTurn) =
      -(c.x * Real.cos q1 + c.y * Real.sin q1) := by
  have hcos := Exact.hypot_mul_cos_arctan2 c.x c.y
  have hsin := Exact.hypot_mul_sin_arctan2 c.x c.y
  rw [Exact.quarterTurn_eq, Real.sin_sub_pi_div_two, Real.cos_sub]
  linear_combination -Real.cos q1 * hcos - Real.sin q1 * hsin

/-- The wrist can lie beside the base axis at its offset. -/
structure Beside (arm : OffsetWrist ℝ) (c : Vec3 ℝ) : Prop where
  radius : singularityTolerance ≤ Scalar.hypot c.x c.y
  ratio : |arm.offsets 3 / Scalar.hypot c.x c.y| ≤ 1

theorem axisOne_eq (arm : OffsetWrist ℝ) (flange : Pose ℝ) (shoulder : Bool) :
    arm.axisOne flange shoulder =
      let c := arm.wristCentre flange
      let ratio := arm.offsets 3 / Scalar.hypot c.x c.y
      let singular : Bool := Scalar.hypot c.x c.y < singularityTolerance || 1 < |ratio|
      (Scalar.arctan2 c.y c.x +
          Exact.mirrored shoulder (if singular then 0 else Real.arccos ratio) +
          Scalar.quarterTurn,
        if singular then [.shoulderSingular] else []) := by
  have hx : arm.offsets 5 * flange.zAxis.x - flange.position.x = -(arm.wristCentre flange).x := by
    simp only [wristCentre, Vec3.sub_def, Vec3.scale]
    ring
  have hy : arm.offsets 5 * flange.zAxis.y - flange.position.y = -(arm.wristCentre flange).y := by
    simp only [wristCentre, Vec3.sub_def, Vec3.scale]
    ring
  have hroot : Scalar.sqrt (-(arm.wristCentre flange).y * -(arm.wristCentre flange).y +
      -(arm.wristCentre flange).x * -(arm.wristCentre flange).x) =
      Scalar.hypot (arm.wristCentre flange).x (arm.wristCentre flange).y := by
    rw [Exact.hypot_eq]
    exact congrArg Real.sqrt (by ring)
  unfold axisOne
  dsimp only
  rw [hx, hy, hroot, neg_neg, neg_neg, Exact.abs_eq]
  cases shoulder
  · rfl
  · rw [if_pos rfl, sub_eq_add_neg]
    rfl

theorem beside_of_axisOne {shoulder : Bool} (h : (arm.axisOne flange shoulder).2 = []) :
    arm.Beside (arm.wristCentre flange) := by
  rw [axisOne_eq] at h
  simp only [Bool.or_eq_true, decide_eq_true_eq, ite_eq_right_iff, reduceCtorEq, imp_false, not_or,
    not_lt] at h
  exact ⟨h.1, h.2⟩

theorem Beside.axisOne_eq (h : arm.Beside (arm.wristCentre flange)) (shoulder : Bool) :
    arm.axisOne flange shoulder =
      (Scalar.arctan2 (arm.wristCentre flange).y (arm.wristCentre flange).x +
        Exact.mirrored shoulder (Real.arccos (arm.offsets 3 /
          Scalar.hypot (arm.wristCentre flange).x (arm.wristCentre flange).y)) +
        Scalar.quarterTurn, []) := by
  rw [OffsetWrist.axisOne_eq]
  dsimp only
  rw [decide_eq_false h.radius.not_gt, decide_eq_false h.ratio.not_gt]
  rfl

/-- Axis 1 turns the arm until the wrist lies at its offset along the hinge. -/
theorem dot_axisOne {shoulder : Bool} (h : (arm.axisOne flange shoulder).2 = []) :
    (hinge (arm.axisOne flange shoulder).1).dot (arm.wristCentre flange) = arm.offsets 3 := by
  have hbeside := beside_of_axisOne h
  have hradius := (singularityTolerance_pos.trans_le hbeside.radius).ne'
  have hangle : ∀ direction angle : ℝ,
      direction + angle + Scalar.quarterTurn - direction - Scalar.quarterTurn = angle := by
    intro direction angle
    ring
  rw [dot_hinge_eq, hbeside.axisOne_eq, hangle, Exact.cos_mirrored_arccos _ hbeside.ratio,
    mul_div_cancel₀ _ hradius]

/-- Axis 1 is found from a wrist that lies at its offset along the hinge. The shoulder flag tells
the side of the base axis that it lies on. -/
theorem turned_axisOne {shoulder : Bool}
    (hdot : (hinge q1).dot (arm.wristCentre flange) = arm.offsets 3)
    (hradius : singularityTolerance ≤
      Scalar.hypot (arm.wristCentre flange).x (arm.wristCentre flange).y)
    (hshoulder : 0 ≤ Exact.mirrored shoulder (-((arm.wristCentre flange).x * Real.cos q1 +
      (arm.wristCentre flange).y * Real.sin q1))) :
    (arm.axisOne flange shoulder).2 = [] ∧
      ((arm.axisOne flange shoulder).1 : Real.Angle) = q1 := by
  have hpos := singularityTolerance_pos.trans_le hradius
  rw [dot_hinge_eq] at hdot
  have hratio := (eq_div_of_mul_eq hpos.ne' ((mul_comm _ _).trans hdot)).symm
  have hbeside : arm.Beside (arm.wristCentre flange) :=
    ⟨hradius, hratio ▸ Real.abs_cos_le_one _⟩
  have hsin : 0 ≤ Exact.mirrored shoulder (Real.sin (q1 -
      Scalar.arctan2 (arm.wristCentre flange).y (arm.wristCentre flange).x -
        Scalar.quarterTurn)) := by
    rw [← sin_hinge_eq, Exact.mirrored_mul] at hshoulder
    exact nonneg_of_mul_nonneg_right hshoulder hpos
  refine ⟨by rw [hbeside.axisOne_eq], ?_⟩
  rw [hbeside.axisOne_eq, hratio, Real.Angle.coe_add, Real.Angle.coe_add,
    Exact.coe_mirrored_arccos hsin, ← Real.Angle.coe_add, ← Real.Angle.coe_add]
  congr 1
  ring

theorem hinge_mul_self (q1 : ℝ) : (hinge q1).dot (hinge q1) = 1 := by
  simp only [hinge, Vec3.dot]
  linear_combination Real.sin_sq_add_cos_sq q1

/-- The hinge as the flange sees it is a direction. -/
theorem seen_mul_self (hflange : flange.Rigid) (q1 : ℝ) :
    (flange.rotation.inverse.apply (hinge q1)).dot (flange.rotation.inverse.apply (hinge q1)) =
      1 := by
  rw [Rotation.Proper.dot_apply (Rotation.Proper.inverse hflange), hinge_mul_self]

theorem abs_seen_z_le (hflange : flange.Rigid) (q1 : ℝ) :
    |(flange.rotation.inverse.apply (hinge q1)).z| ≤ 1 := by
  have hunit := seen_mul_self hflange q1
  set seen := flange.rotation.inverse.apply (hinge q1)
  rw [Vec3.dot] at hunit
  exact abs_le_one_iff_mul_self_le_one.mpr
    (by linarith [mul_self_nonneg seen.x, mul_self_nonneg seen.y])

theorem seen_z (hflange : flange.Rigid) (q1 : ℝ) :
    (flange.rotation.inverse.apply (hinge q1)).z = (hinge q1).dot flange.zAxis := by
  have hdot := Rotation.Proper.dot_apply hflange (flange.rotation.inverse.apply (hinge q1))
    Vec3.zAxis
  rw [Rotation.Proper.apply_inverse_apply hflange] at hdot
  have hz : (hinge q1).dot flange.zAxis = _ := hdot
  rw [hz]
  simp [Vec3.dot, Vec3.zAxis]

/-- Axis 5 is the angle between the flange and the hinge. -/
theorem axisFive_eq (harm : arm.Standard) (hflange : flange.Rigid)
    (hdot : (hinge q1).dot (arm.wristCentre flange) = arm.offsets 3) (positive : Bool) :
    arm.axisFive flange q1 positive = (Exact.mirrored (!positive)
      (Real.arccos (flange.rotation.inverse.apply (hinge q1)).z), []) := by
  have hreach := abs_seen_z_le hflange q1
  have hz := seen_z hflange q1
  set seen := flange.rotation.inverse.apply (hinge q1)
  have hratio : (flange.position.x * Scalar.sin q1 - flange.position.y * Scalar.cos q1 -
      arm.offsets 3) / arm.offsets 5 = seen.z := by
    rw [wristCentre, dot_sub_scale, ← hz, hinge, Vec3.dot] at hdot
    rw [div_eq_iff harm.hand]
    show flange.position.x * Real.sin q1 - flange.position.y * Real.cos q1 - _ = _
    linear_combination hdot
  unfold axisFive
  dsimp only
  rw [hratio, clampedArccos_eq hreach]
  cases positive <;> rfl

/-- Axis 6 is the direction in which the flange sees the hinge. -/
theorem axisSix_eq (hflange : flange.Rigid) (q1 q5 : ℝ) :
    axisSix flange q1 q5 =
      if |Real.sin q5| < singularityTolerance then (0, [.wristSingular])
      else (Scalar.arctan2 (-(flange.rotation.inverse.apply (hinge q1)).y / Real.sin q5)
        ((flange.rotation.inverse.apply (hinge q1)).x / Real.sin q5), []) := by
  have hrows := (Rotation.Proper.inverse hflange).apply_eq_basis (hinge q1)
  have hx : (flange.rotation.inverse.apply (hinge q1)).x =
      flange.rotation.inverse.basis.x.x * Real.sin q1 -
        flange.rotation.inverse.basis.y.x * Real.cos q1 := by
    rw [hrows]
    simp only [Vec3.scale, Vec3.add_def, hinge]
    ring
  have hy : -(flange.rotation.inverse.apply (hinge q1)).y =
      -flange.rotation.inverse.basis.x.y * Real.sin q1 +
        flange.rotation.inverse.basis.y.y * Real.cos q1 := by
    rw [hrows]
    simp only [Vec3.scale, Vec3.add_def, hinge]
    ring
  unfold axisSix
  dsimp only
  rw [Exact.abs_eq, hx, hy]
  rfl

theorem bent_of_axisSix (hflange : flange.Rigid) (h : (axisSix flange q1 q5).2 = []) :
    singularityTolerance ≤ |Real.sin q5| := by
  by_contra hstraight
  rw [axisSix_eq hflange, if_pos (not_le.mp hstraight)] at h
  exact List.cons_ne_nil _ _ h

/-- The axes 5 and 6 leave the hinge where the flange sees it. -/
theorem seenHinge_of_axes (harm : arm.Standard) (hflange : flange.Rigid)
    (hdot : (hinge q1).dot (arm.wristCentre flange) = arm.offsets 3) {positive : Bool}
    (h5 : (arm.axisFive flange q1 positive).1 = q5) (hsix : (axisSix flange q1 q5).2 = []) :
    flange.rotation.inverse.apply (hinge q1) = seenHinge q5 (axisSix flange q1 q5).1 := by
  have hbent := bent_of_axisSix hflange hsix
  have hne : Real.sin q5 ≠ 0 := abs_pos.mp (singularityTolerance_pos.trans_le hbent)
  have hunit := seen_mul_self hflange q1
  have hreach := abs_seen_z_le hflange q1
  rw [axisFive_eq harm hflange hdot] at h5
  rw [axisSix_eq hflange, if_neg hbent.not_gt]
  set seen := flange.rotation.inverse.apply (hinge q1)
  rw [Vec3.dot] at hunit
  have hcos : Real.cos q5 = seen.z := by
    rw [← h5, Exact.cos_mirrored_arccos _ hreach]
  have hflat : Scalar.hypot (seen.x / Real.sin q5) (-seen.y / Real.sin q5) = 1 := by
    refine Exact.hypot_eq_of_mul_self zero_le_one ?_
    rw [div_pow, div_pow, ← add_div, eq_div_iff (pow_ne_zero 2 hne)]
    have hsquares := Real.sin_sq_add_cos_sq q5
    rw [hcos] at hsquares
    linear_combination hsquares - hunit
  have hcos6 := Exact.hypot_mul_cos_arctan2 (seen.x / Real.sin q5) (-seen.y / Real.sin q5)
  have hsin6 := Exact.hypot_mul_sin_arctan2 (seen.x / Real.sin q5) (-seen.y / Real.sin q5)
  rw [hflat, one_mul] at hcos6 hsin6
  rw [seenHinge, hcos6, hsin6, hcos, mul_div_cancel₀ _ hne, mul_div_cancel₀ _ hne, neg_neg]

/-- The axes 5 and 6 are found from the hinge as the flange sees it, unless the wrist is straight.
The wrist flag tells the side that axis 5 bends it to. -/
theorem turned_axes (harm : arm.Standard) (hflange : flange.Rigid) {q6 : ℝ} (positive : Bool)
    (hdot : (hinge q1).dot (arm.wristCentre flange) = arm.offsets 3)
    (hseen : flange.rotation.inverse.apply (hinge q1) = seenHinge q5 q6)
    (hbent : singularityTolerance ≤ |Real.sin q5|)
    (hwrist : 0 ≤ Exact.mirrored (!positive) (Real.sin q5)) :
    let five := arm.axisFive flange q1 positive
    let six := axisSix flange q1 five.1
    (five.2 = [] ∧ six.2 = []) ∧ (five.1 : Real.Angle) = q5 ∧ (six.1 : Real.Angle) = q6 := by
  have hne : Real.sin q5 ≠ 0 := abs_pos.mp (singularityTolerance_pos.trans_le hbent)
  have h5 := Exact.coe_mirrored_arccos hwrist
  rw [axisFive_eq harm hflange hdot, hseen]
  dsimp only [seenHinge]
  rw [axisSix_eq hflange, Exact.sin_eq_of_coe_eq h5, if_neg hbent.not_gt, hseen]
  refine ⟨⟨rfl, rfl⟩, h5, Exact.coe_arctan2 one_pos ?_ ?_⟩
  · rw [seenHinge, one_mul, mul_div_cancel_left₀ _ hne]
  · rw [seenHinge, neg_neg, one_mul, mul_div_cancel_left₀ _ hne]

end Axes

/-! ### Flanges -/

section Flange

variable {flange : Pose ℝ}

theorem inverse_eq (arm : OffsetWrist ℝ) (flange : Pose ℝ) (configuration : Configuration) :
    arm.inverse flange configuration =
      let shoulder := configuration.includes .shoulder
      let one := arm.axisOne flange shoulder
      let five := arm.axisFive flange one.1 (!configuration.includes .wrist)
      let six := axisSix flange one.1 five.1
      let plane := arm.planeAxes (arm.forearmPose flange one.1 five.1 six.1)
        (configuration.includes .elbow != shoulder)
      { joints := [one.1, plane.1.1, plane.1.2.1, plane.1.2.2, five.1, six.1].map settle
        faults := one.2 ++ five.2 ++ six.2 ++ plane.2 } := by
  unfold inverse
  dsimp only
  rw [if_pos (List.all_eq_true.mpr fun joint _ ↦ Exact.isFinite_eq_true joint), List.append_nil]

theorem getLast?_forward (arm : OffsetWrist ℝ) (q1 q2 q3 q4 q5 q6 : ℝ) :
    (arm.forward [q1, q2, q3, q4, q5, q6]).getLast? =
      some ((arm.link 0 Scalar.quarterTurn).transform q1 * arm.planar q2 q3 q4 *
        arm.hand q5 q6) := by
  have h1 := rigid_link arm 0 Scalar.quarterTurn q1
  have h2 := rigid_link arm 1 0 q2
  have h3 := rigid_link arm 2 0 q3
  have hplanar := arm.rigid_planar q2 q3 q4
  simp only [forward, chain, links, chainFrom, List.getLast?_cons_cons, List.getLast?_singleton,
    Pose.one_mul]
  rw [hand, ← Pose.mul_assoc (h1.mul hplanar) (rigid_link _ _ _ _), planar, ← Pose.mul_assoc h1
    (h2.mul h3), ← Pose.mul_assoc h1 h2]

/-- The argument of the arc cosine that gives axis 3 of a branch. -/
noncomputable def triangleCosine (arm : OffsetWrist ℝ) (flange : Pose ℝ)
    (configuration : Configuration) : ℝ :=
  let q1 := (arm.axisOne flange (configuration.includes .shoulder)).1
  let q5 := (arm.axisFive flange q1 (!configuration.includes .wrist)).1
  let q6 := (axisSix flange q1 q5).1
  arm.elbowCosine (arm.forearmPose flange q1 q5 q6)

/-- Where the flange tells the position: the wrist centre is off the base axis, axis 4 is off
axis 2, and axis 5 does not align the axes 4 and 6. -/
structure Regular (arm : OffsetWrist ℝ) (flange : Pose ℝ) (q1 q2 q3 q5 : ℝ) : Prop where
  bent : singularityTolerance ≤ |Real.sin q5|
  base : singularityTolerance ≤ (1 : Pose ℝ).axisDistance (arm.wristCentre flange)
  axisTwo : 0 < ((arm.link 0 Scalar.quarterTurn).transform q1).axisDistance
    (chainEnd (arm.links.take 3) [q1, q2, q3]).position

/-- The centre of the wrist as seen from axis 2. -/
noncomputable def wristPoint (arm : OffsetWrist ℝ) (q2 q3 q4 : ℝ) : Vec3 ℝ :=
  (arm.planar q2 q3 q4).applyPoint ⟨0, 0, arm.offsets 4⟩

/-- The centre of the wrist behind the axes of a position. -/
theorem Standard.wristCentre_forward (harm : arm.Standard) {q1 q2 q3 q4 q5 q6 : ℝ}
    (hflange : (arm.forward [q1, q2, q3, q4, q5, q6]).getLast? = some flange) :
    arm.wristCentre flange =
      let w := arm.wristPoint q2 q3 q4
      ⟨w.x * Real.cos q1 + arm.offsets 3 * Real.sin q1,
        w.x * Real.sin q1 - arm.offsets 3 * Real.cos q1, arm.offsets 0 + w.y⟩ := by
  have hupright := harm.upright_planar q2 q3 q4
  have hz : (arm.wristPoint q2 q3 q4).z = arm.offsets 3 := by
    rw [wristPoint, applyPoint_z hupright.rigid hupright.axis, zero_add, hupright.offset]
  rw [getLast?_forward, Option.some_inj] at hflange
  rw [← hflange, harm.wristCentre_mul hupright.rigid, ← wristPoint, harm.applyPoint_zero, hz]

/-- The distance of axis 4 from axis 2, which it is parallel to. -/
theorem Standard.axisDistance_chainEnd (harm : arm.Standard) (q1 q2 q3 q4 : ℝ) :
    ((arm.link 0 Scalar.quarterTurn).transform q1).axisDistance
        (chainEnd (arm.links.take 3) [q1, q2, q3]).position =
      Scalar.hypot (arm.planar q2 q3 q4).position.x (arm.planar q2 q3 q4).position.y := by
  have hbase := rigid_link arm 0 Scalar.quarterTurn q1
  have hchain : chainEnd (arm.links.take 3) [q1, q2, q3] =
      (arm.link 0 Scalar.quarterTurn).transform q1 *
        ((arm.link 1 0).transform q2 * (arm.link 2 0).transform q3) := by
    simp only [chainEnd, chain, links, chainFrom, List.take_succ_cons, List.take_zero,
      List.getLastD_cons, List.getLastD_nil, Pose.one_mul]
    rw [Pose.mul_assoc hbase (rigid_link _ _ _ _)]
  have hplace : ((arm.link 1 0).transform q2 * (arm.link 2 0).transform q3).position =
      ((arm.link 1 0).transform q2 * (arm.link 2 0).transform q3).applyPoint ⟨0, 0, 0⟩ := by
    rw [Pose.applyPoint, ← Vec3.zero_def, Rotation.apply_zero, zero_add]
  rw [hchain, Pose.position_mul, hbase.axisDistance_applyPoint, hplace, harm.applyPoint_links,
    harm.position_planar]

/-- Regular positions by their axes. -/
theorem Standard.regular_iff (harm : arm.Standard) {q1 q2 q3 q4 q5 q6 : ℝ}
    (hflange : (arm.forward [q1, q2, q3, q4, q5, q6]).getLast? = some flange) :
    arm.Regular flange q1 q2 q3 q5 ↔
      singularityTolerance ≤ |Real.sin q5| ∧
      singularityTolerance ≤ Scalar.hypot (arm.wristPoint q2 q3 q4).x (arm.offsets 3) ∧
      0 < Scalar.hypot (arm.planar q2 q3 q4).position.x (arm.planar q2 q3 q4).position.y := by
  have hbase : (1 : Pose ℝ).axisDistance (arm.wristCentre flange) =
      Scalar.hypot (arm.wristPoint q2 q3 q4).x (arm.offsets 3) := by
    rw [Pose.axisDistance_one, harm.wristCentre_forward hflange, Exact.hypot_mirror]
  rw [← hbase, ← harm.axisDistance_chainEnd q1 q2 q3 q4]
  exact ⟨fun ⟨h1, h2, h3⟩ ↦ ⟨h1, h2, h3⟩, fun ⟨h1, h2, h3⟩ ↦ ⟨h1, h2, h3⟩⟩

/-- The flags of a configuration tell the sides that a position is on: of the base axis, of a
straight elbow and of a straight wrist. The elbow is turned over with the shoulder. -/
structure Flagged (arm : OffsetWrist ℝ) (configuration : Configuration) (q2 q3 q4 q5 : ℝ) :
    Prop where
  shoulder : 0 ≤ Exact.mirrored (configuration.includes .shoulder) (-(arm.wristPoint q2 q3 q4).x)
  elbow : 0 ≤ Exact.mirrored (configuration.includes .elbow != configuration.includes .shoulder)
    (Real.sin q3)
  wrist : 0 ≤ Exact.mirrored (configuration.includes .wrist) (Real.sin q5)

theorem exists_flagged (arm : OffsetWrist ℝ) (q2 q3 q4 q5 : ℝ) :
    ∃ configuration ∈ Solver.branches, arm.Flagged configuration q2 q3 q4 q5 := by
  obtain ⟨shoulder, hshoulder⟩ := Exact.exists_mirrored_nonneg (-(arm.wristPoint q2 q3 q4).x)
  obtain ⟨flag, helbow⟩ := Exact.exists_mirrored_nonneg (Real.sin q3)
  obtain ⟨wrist, hwrist⟩ := Exact.exists_mirrored_nonneg (Real.sin q5)
  obtain ⟨configuration, hbranch, rfl, rfl, rfl⟩ :=
    Solver.exists_mem_branches_bne shoulder flag wrist
  exact ⟨configuration, hbranch, hshoulder, helbow, hwrist⟩

/-- The axes 1, 5 and 6 of a regular position are found in the branch whose flags tell its sides. -/
theorem turned_outerAxes (harm : arm.Standard) {q1 q2 q3 q4 q5 q6 : ℝ}
    (hflange : (arm.forward [q1, q2, q3, q4, q5, q6]).getLast? = some flange)
    (hregular : arm.Regular flange q1 q2 q3 q5) {configuration : Configuration}
    (hflags : arm.Flagged configuration q2 q3 q4 q5) :
    let one := arm.axisOne flange (configuration.includes .shoulder)
    let five := arm.axisFive flange one.1 (!configuration.includes .wrist)
    let six := axisSix flange one.1 five.1
    (one.2 = [] ∧ five.2 = [] ∧ six.2 = []) ∧
      (one.1 : Real.Angle) = q1 ∧ (five.1 : Real.Angle) = q5 ∧ (six.1 : Real.Angle) = q6 := by
  have hbase := hregular.base
  rw [Pose.axisDistance_one] at hbase
  have hshoulder : (arm.wristCentre flange).x * Real.cos q1 +
      (arm.wristCentre flange).y * Real.sin q1 = (arm.wristPoint q2 q3 q4).x := by
    rw [harm.wristCentre_forward hflange]
    linear_combination (arm.wristPoint q2 q3 q4).x * Real.sin_sq_add_cos_sq q1
  rw [getLast?_forward, Option.some_inj] at hflange
  have hrigid : flange.Rigid :=
    hflange ▸ ((rigid_link _ _ _ _).mul (arm.rigid_planar q2 q3 q4)).mul (arm.rigid_hand _ _)
  obtain ⟨hseen, hdot⟩ := harm.hinge_of_upright (harm.upright_planar q2 q3 q4) hflange
  obtain ⟨hone, h1⟩ := turned_axisOne hdot hbase (hshoulder ▸ hflags.shoulder)
  -- Axis 1 as it is found has the hinge of the position, from which the axes 5 and 6 are found.
  have hhinge : hinge (arm.axisOne flange (configuration.includes .shoulder)).1 = hinge q1 := by
    rw [hinge, hinge, Exact.sin_eq_of_coe_eq h1, Exact.cos_eq_of_coe_eq h1]
  rw [← hhinge] at hdot hseen
  obtain ⟨⟨hfive, hsix⟩, h5, h6⟩ := turned_axes harm hrigid (!configuration.includes .wrist) hdot
    hseen hregular.bent (by rw [Bool.not_not]; exact hflags.wrist)
  exact ⟨⟨hone, hfive, hsix⟩, h1, h5, h6⟩

/-- The branch whose flags tell the sides of a regular position finds the position again. -/
theorem turned_inverse (harm : arm.Standard) {q1 q2 q3 q4 q5 q6 : ℝ}
    (hflange : (arm.forward [q1, q2, q3, q4, q5, q6]).getLast? = some flange)
    (hregular : arm.Regular flange q1 q2 q3 q5) {configuration : Configuration}
    (hflags : arm.Flagged configuration q2 q3 q4 q5) :
    arm.triangleCosine flange configuration = Real.cos q3 ∧
      (arm.inverse flange configuration).faults = [] ∧
      Angle.Turned (arm.inverse flange configuration).joints [q1, q2, q3, q4, q5, q6] := by
  obtain ⟨⟨hone, hfive, hsix⟩, h1, h5, h6⟩ := turned_outerAxes harm hflange hregular hflags
  obtain ⟨-, -, haxis⟩ := (harm.regular_iff hflange).mp hregular
  -- What the outer axes leave is the plane triangle of the position.
  have hforearm := arm.same_forearmPose (arm.rigid_planar q2 q3 q4) h1 h5 h6
  rw [getLast?_forward, Option.some_inj] at hflange
  rw [hflange] at hforearm
  obtain ⟨hcosine, hplane, hturned⟩ := turned_planeAxes harm hforearm.symm
    (hforearm.1.symm ▸ haxis) hflags.elbow
  refine ⟨hcosine, ?_⟩
  rw [inverse_eq]
  dsimp only
  rw [hone, hfive, hsix, hplane]
  rcases hturned _ _ _ rfl with - | ⟨h2, - | ⟨h3, - | ⟨h4, -⟩⟩⟩
  exact ⟨rfl, (turned_settle _).trans (.cons h1 (.cons h2 (.cons h3 (.cons h4
    (.cons h5 (.cons h6 .nil))))))⟩

/-- One of the branches finds a regular position again. -/
theorem exists_turned_inverse (harm : arm.Standard) {q1 q2 q3 q4 q5 q6 : ℝ}
    (hflange : (arm.forward [q1, q2, q3, q4, q5, q6]).getLast? = some flange)
    (hregular : arm.Regular flange q1 q2 q3 q5) :
    ∃ configuration ∈ Solver.branches, (arm.inverse flange configuration).faults = [] ∧
      Angle.Turned (arm.inverse flange configuration).joints [q1, q2, q3, q4, q5, q6] := by
  obtain ⟨configuration, hbranch, hflags⟩ := arm.exists_flagged q2 q3 q4 q5
  exact ⟨configuration, hbranch, (turned_inverse harm hflange hregular hflags).2⟩

/-- A branch without faults leads the chain back to the flange, and all axis values are reduced.
The arc cosine of axis 3 is clamped into its domain, and what is no farther outside than the
tolerance is not a fault: there the triangle does not close, and nothing is said. -/
theorem inverse_exact_of_triangle (harm : arm.Standard) (hflange : flange.Rigid)
    (configuration : Configuration)
    (helbow : |arm.triangleCosine flange configuration| ≤ 1)
    (hfaults : (arm.inverse flange configuration).faults = []) :
    (∃ last, (arm.forward (arm.inverse flange configuration).joints).getLast? = some last ∧
        last.Same flange) ∧
      ∀ joint ∈ (arm.inverse flange configuration).joints,
        joint ∈ Set.Ioc (-Real.pi) Real.pi := by
  rw [inverse_eq] at hfaults ⊢
  rw [triangleCosine] at helbow
  dsimp only at hfaults helbow ⊢
  simp only [List.append_eq_nil_iff] at hfaults
  obtain ⟨⟨⟨hone, -⟩, hsix⟩, -⟩ := hfaults
  refine ⟨?_, fun joint hjoint ↦ settled_mem_Ioc hjoint⟩
  have hdot := dot_axisOne hone
  set q1 := (arm.axisOne flange (configuration.includes .shoulder)).1
  have hseen := seenHinge_of_axes harm hflange hdot rfl hsix
  set q5 := (arm.axisFive flange q1 (!configuration.includes .wrist)).1
  set q6 := (axisSix flange q1 q5).1
  have hupright := upright_forearmPose harm hflange hseen hdot
  obtain ⟨⟨q2, q3, q4⟩, hplane⟩ : ∃ axes, (arm.planeAxes (arm.forearmPose flange q1 q5 q6)
    (configuration.includes .elbow != configuration.includes .shoulder)).1 = axes := ⟨_, rfl⟩
  have hplanar := same_planar_planeAxes harm hupright helbow hplane
  rw [hplane]
  dsimp only
  obtain ⟨last, hlast, hreached⟩ := exists_getLast?_same
    (Solver.same_forward (.offsetWrist arm) (turned_settle _)) (arm.getLast?_forward _ _ _ _ _ _)
  refine ⟨last, hlast, hreached.trans ?_⟩
  have hchain := ((Pose.Same.refl ((arm.link 0 Scalar.quarterTurn).transform q1)).mul hplanar).mul
    (Pose.Same.refl (arm.hand q5 q6))
  rwa [arm.mul_forearmPose hflange q1 q5 q6] at hchain

/-- Upper arm and forearm of length one, counted backwards, with the wrist beside them. -/
noncomputable def plainOffset : OffsetWrist ℝ :=
  ⟨![0, -1, -1, 0, 0, 0], ![0, 0, 0, 1, 0, 1]⟩

/-- Upper arm level, forearm upright, the hand at a right angle to it. -/
noncomputable def rightAngles : List ℝ :=
  [0, 0, Scalar.quarterTurn, 0, Scalar.quarterTurn, 0]

/-- The pose that the right angles lead to. -/
noncomputable def angular : Pose ℝ :=
  chainEnd plainOffset.links rightAngles

theorem forward_angular : (plainOffset.forward rightAngles).getLast? = some angular :=
  getLast?_chain_cons _ _ _ _

theorem standard_plainOffset : plainOffset.Standard :=
  ⟨neg_ne_zero.mpr one_ne_zero, neg_ne_zero.mpr one_ne_zero, one_ne_zero, ⟨rfl, rfl, rfl, rfl⟩,
    ⟨rfl, rfl⟩⟩

theorem position_angular :
    (plainOffset.planar 0 Scalar.quarterTurn 0).position = ⟨-1, -1, 1⟩ := by
  rw [standard_plainOffset.position_planar]
  simp [plainOffset, Exact.cos_quarterTurn, Exact.sin_quarterTurn]

theorem wristPoint_angular : plainOffset.wristPoint 0 Scalar.quarterTurn 0 = ⟨-1, -1, 1⟩ := by
  have hcentre : (⟨0, 0, plainOffset.offsets 4⟩ : Vec3 ℝ) = 0 := rfl
  rw [wristPoint, hcentre, Pose.applyPoint, Rotation.apply_zero, zero_add, position_angular]

theorem regular_angular :
    plainOffset.Regular angular 0 0 Scalar.quarterTurn Scalar.quarterTurn := by
  have hbase : singularityTolerance ≤ |(-1 : ℝ)| := by norm_num [singularityTolerance]
  rw [standard_plainOffset.regular_iff forward_angular, wristPoint_angular, position_angular,
    Exact.sin_quarterTurn]
  exact ⟨by norm_num [singularityTolerance], hbase.trans (Exact.abs_le_hypot _ _),
    Exact.hypot_pos_iff.mpr (.inl (neg_ne_zero.mpr one_ne_zero))⟩

theorem flagged_angular :
    plainOffset.Flagged .empty 0 Scalar.quarterTurn 0 Scalar.quarterTurn where
  shoulder := by
    rw [wristPoint_angular, neg_neg]
    exact zero_le_one
  elbow := by
    rw [Exact.sin_quarterTurn]
    exact zero_le_one
  wrist := by
    rw [Exact.sin_quarterTurn]
    exact zero_le_one

theorem inverse_exact_angular_offset :
    plainOffset.Standard ∧ angular.Rigid ∧ |plainOffset.triangleCosine angular .empty| ≤ 1 ∧
      (plainOffset.inverse angular .empty).faults = [] ∧
      (∃ last, (plainOffset.forward (plainOffset.inverse angular .empty).joints).getLast? =
        some last ∧ last.Same angular) ∧
      ∀ joint ∈ (plainOffset.inverse angular .empty).joints,
        joint ∈ Set.Ioc (-Real.pi) Real.pi := by
  have hrigid : angular.Rigid := rigid_chainEnd _ _
  obtain ⟨hcosine, hfaults, -⟩ :=
    turned_inverse standard_plainOffset forward_angular regular_angular flagged_angular
  have hcloses : |plainOffset.triangleCosine angular .empty| ≤ 1 :=
    hcosine ▸ Real.abs_cos_le_one _
  exact ⟨standard_plainOffset, hrigid, hcloses, hfaults,
    inverse_exact_of_triangle standard_plainOffset hrigid .empty hcloses hfaults⟩

end Flange

end Toolpath.OffsetWrist
