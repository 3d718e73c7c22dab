import Toolpath.Proofs.Exact.Following
import Toolpath.Proofs.Exact.Wrist

/-!
The plane triangle of arms with an offset wrist over exact numbers. The axes 2, 3 and 4 are
parallel, and the poses that they can make (`OffsetWrist.planar`) are `Upright`. Of an upright pose
whose triangle closes, the solver finds the three axes (`OffsetWrist.same_planar_planeAxes`), and it
finds them again from a pose that they made (`OffsetWrist.turned_planeAxes`).
-/

set_option autoImplicit false
set_option relaxedAutoImplicit false

namespace Toolpath.OffsetWrist

/-- The lengths and offsets that the solver does not read are zero, and upper arm, forearm and hand
have a length, of either sign. -/
structure Standard (arm : OffsetWrist ℝ) : Prop where
  upper : arm.lengths 1 ≠ 0
  forearm : arm.lengths 2 ≠ 0
  hand : arm.offsets 5 ≠ 0
  lengths : arm.lengths 0 = 0 ∧ arm.lengths 3 = 0 ∧ arm.lengths 4 = 0 ∧ arm.lengths 5 = 0
  offsets : arm.offsets 1 = 0 ∧ arm.offsets 2 = 0

variable {arm : OffsetWrist ℝ}

/-- The pose of axis 4 as seen from axis 2. -/
noncomputable def planar (arm : OffsetWrist ℝ) (q2 q3 q4 : ℝ) : Pose ℝ :=
  (arm.link 1 0).transform q2 * (arm.link 2 0).transform q3 *
    (arm.link 3 Scalar.quarterTurn).transform q4

/-- A pose that three parallel axes can make: it keeps their direction, and lies at the offset of
the wrist. -/
structure Upright (arm : OffsetWrist ℝ) (forearm : Pose ℝ) : Prop where
  rigid : forearm.Rigid
  axis : forearm.rotation.apply Vec3.yAxis = Vec3.zAxis
  offset : forearm.position.z = arm.offsets 3

theorem rigid_link (arm : OffsetWrist ℝ) (place : Fin 6) (twist q : ℝ) :
    ((arm.link place twist).transform q).Rigid :=
  Link.rigid_transform _ q

theorem rigid_planar (arm : OffsetWrist ℝ) (q2 q3 q4 : ℝ) : (arm.planar q2 q3 q4).Rigid :=
  ((rigid_link _ _ _ _).mul (rigid_link _ _ _ _)).mul (rigid_link _ _ _ _)

/-- Upper arm and forearm place a point on axis 4. -/
theorem Standard.applyPoint_links (harm : arm.Standard) (q2 q3 height : ℝ) :
    ((arm.link 1 0).transform q2 * (arm.link 2 0).transform q3).applyPoint ⟨0, 0, height⟩ =
      { x := (arm.lengths 1 + arm.lengths 2 * Real.cos q3) * Real.cos q2 -
          arm.lengths 2 * Real.sin q3 * Real.sin q2
        y := (arm.lengths 1 + arm.lengths 2 * Real.cos q3) * Real.sin q2 +
          arm.lengths 2 * Real.sin q3 * Real.cos q2
        z := height } := by
  rw [Pose.applyPoint_mul (rigid_link _ _ _ _) (rigid_link _ _ _ _)]
  simp only [Link.applyPoint_transform, link, harm.offsets.1, harm.offsets.2, Real.cos_zero,
    Real.sin_zero]
  congr 1 <;> ring

theorem Standard.transform_three (harm : arm.Standard) (q4 : ℝ) :
    (arm.link 3 Scalar.quarterTurn).transform q4 =
      ⟨⟨0, 0, arm.offsets 3⟩, .aboutZ q4 * .aboutX Scalar.quarterTurn⟩ := by
  rw [Link.transform_eq]
  simp only [link, harm.lengths.2.1, zero_mul]

theorem Standard.position_planar (harm : arm.Standard) (q2 q3 q4 : ℝ) :
    (arm.planar q2 q3 q4).position =
      { x := (arm.lengths 1 + arm.lengths 2 * Real.cos q3) * Real.cos q2 -
          arm.lengths 2 * Real.sin q3 * Real.sin q2
        y := (arm.lengths 1 + arm.lengths 2 * Real.cos q3) * Real.sin q2 +
          arm.lengths 2 * Real.sin q3 * Real.cos q2
        z := arm.offsets 3 } := by
  rw [planar, Pose.position_mul, harm.transform_three, harm.applyPoint_links]

theorem basis_aboutZ_mul_aboutX (angle : ℝ) :
    (Rotation.aboutZ angle * Rotation.aboutX Scalar.quarterTurn).basis =
      ⟨⟨Real.cos angle, Real.sin angle, 0⟩, Vec3.zAxis,
        ⟨Real.sin angle, -Real.cos angle, 0⟩⟩ := by
  rw [((Rotation.proper_aboutZ angle).mul (Rotation.proper_aboutX _)).basis_eq]
  simp [(Rotation.proper_aboutZ angle).apply_mul (Rotation.proper_aboutX _), Rotation.apply_aboutX,
    Rotation.apply_aboutZ, Vec3.xAxis, Vec3.yAxis, Vec3.zAxis, Exact.cos_quarterTurn,
    Exact.sin_quarterTurn]

theorem apply_zAxis_link (arm : OffsetWrist ℝ) (place : Fin 6) (q : ℝ) :
    ((arm.link place 0).transform q).rotation.apply Vec3.zAxis = Vec3.zAxis := by
  rw [Link.apply_rotation_transform]
  simp [link, Vec3.zAxis]

theorem Standard.upright_planar (harm : arm.Standard) (q2 q3 q4 : ℝ) :
    arm.Upright (arm.planar q2 q3 q4) := by
  refine ⟨rigid_planar _ _ _ _, ?_, by rw [harm.position_planar]⟩
  have hlast : ((arm.link 3 Scalar.quarterTurn).transform q4).rotation.apply Vec3.yAxis =
      Vec3.zAxis := by
    have hbasis := ((Rotation.proper_aboutZ q4).mul
      (Rotation.proper_aboutX Scalar.quarterTurn)).basis_eq
    rw [basis_aboutZ_mul_aboutX] at hbasis
    rw [harm.transform_three]
    exact (congrArg Basis.y hbasis).symm
  rw [planar, Pose.apply_rotation_mul ((rigid_link _ _ _ _).mul (rigid_link _ _ _ _))
    (rigid_link _ _ _ _), hlast, Pose.apply_rotation_mul (rigid_link _ _ _ _) (rigid_link _ _ _ _),
    apply_zAxis_link, apply_zAxis_link]

/-- A rotation that lifts the Y axis upright is a quarter turn about X followed by a turn about
Z. -/
theorem same_of_upright {q : Rotation ℝ} (hq : q.Proper) (h : q.apply Vec3.yAxis = Vec3.zAxis) :
    (Rotation.aboutZ (Scalar.arctan2 q.basis.x.y q.basis.x.x) *
      Rotation.aboutX Scalar.quarterTurn).Same q := by
  have hy : q.basis.y = Vec3.zAxis := by rw [hq.basis_eq, h]
  have hcross := hq.isRotation.cross.1
  have hupright := hq.isRotation.sq_add_sq_column
  have hflat : q.basis.z.z = 0 := by
    have hdot := hq.dot_apply Vec3.yAxis Vec3.zAxis
    have hz : q.apply Vec3.zAxis = q.basis.z := by rw [hq.basis_eq]
    rw [h, hz] at hdot
    simpa [Vec3.dot, Vec3.yAxis, Vec3.zAxis] using hdot
  rw [hy] at hcross
  have hx := congrArg Vec3.x hcross
  have hxy := congrArg Vec3.y hcross
  have hxz := congrArg Vec3.z hcross
  simp only [Vec3.cross, Vec3.zAxis, zero_mul, one_mul, zero_sub, sub_zero] at hx hxy hxz
  have hunit : Scalar.hypot q.basis.x.x q.basis.x.y = 1 := by
    refine Exact.hypot_eq_of_mul_self zero_le_one ?_
    rw [hflat] at hupright
    rw [← hx, ← hxy]
    linear_combination -hupright
  have hcos := Exact.hypot_mul_cos_arctan2 q.basis.x.x q.basis.x.y
  have hsin := Exact.hypot_mul_sin_arctan2 q.basis.x.x q.basis.x.y
  rw [hunit, one_mul] at hcos hsin
  refine (((Rotation.proper_aboutZ _).mul (Rotation.proper_aboutX _)).same_iff_basis hq).mpr ?_
  have hfirst : (⟨q.basis.x.x, q.basis.x.y, 0⟩ : Vec3 ℝ) = q.basis.x := Vec3.ext rfl rfl hxz
  have hlast : (⟨q.basis.x.y, -q.basis.x.x, 0⟩ : Vec3 ℝ) = q.basis.z :=
    Vec3.ext hxy.symm (neg_eq_iff_eq_neg.mpr hx.symm) hflat.symm
  rw [basis_aboutZ_mul_aboutX, hcos, hsin, hfirst, hlast, ← hy]

/-- The cosine that gives axis 3, by the law of cosines. -/
theorem Standard.elbowCosine_eq (harm : arm.Standard) (forearm : Pose ℝ) :
    2 * (arm.lengths 1 * arm.lengths 2) * arm.elbowCosine forearm =
      forearm.position.x ^ 2 + forearm.position.y ^ 2 - arm.lengths 1 * arm.lengths 1 -
        arm.lengths 2 * arm.lengths 2 := by
  have hne : 2 * arm.lengths 1 * arm.lengths 2 ≠ 0 :=
    mul_ne_zero (mul_ne_zero two_ne_zero harm.upper) harm.forearm
  unfold elbowCosine
  dsimp only
  rw [Exact.hypot_mul_self, Exact.two_eq, ← mul_assoc, mul_div_cancel₀ _ hne]

theorem clampedArccos_eq {x : ℝ} (h : |x| ≤ 1) (fault : Fault) :
    clampedArccos x fault = (Real.arccos x, []) := by
  have hinside : ¬ singularityTolerance < |x| - 1 := by
    have hpos : (0 : ℝ) < singularityTolerance := by norm_num [singularityTolerance]
    linarith
  rw [clampedArccos, Exact.clamp_eq_self h, Exact.abs_eq, if_neg hinside]
  rfl

/-- The axes 2 to 4 for a triangle that closes. -/
theorem planeAxes_eq {forearm : Pose ℝ} (h : |arm.elbowCosine forearm| ≤ 1) (elbow : Bool) :
    arm.planeAxes forearm elbow =
      let q3 := Exact.mirrored elbow (Real.arccos (arm.elbowCosine forearm))
      let q2 := Scalar.arctan2 forearm.position.y forearm.position.x -
        Scalar.arctan2 (arm.lengths 2 * Real.sin q3)
          (arm.lengths 1 + arm.lengths 2 * Real.cos q3)
      let wrist := ((arm.link 2 0).transform q3).inverse *
        ((arm.link 1 0).transform q2).inverse * forearm
      ((q2, q3, Scalar.arctan2 wrist.rotation.basis.x.y wrist.rotation.basis.x.x), []) := by
  unfold planeAxes
  dsimp only
  rw [clampedArccos_eq h]
  rfl

theorem links_mul_wrist (arm : OffsetWrist ℝ) (q2 q3 : ℝ) (forearm : Pose ℝ) :
    (arm.link 1 0).transform q2 * (arm.link 2 0).transform q3 *
      (((arm.link 2 0).transform q3).inverse * ((arm.link 1 0).transform q2).inverse * forearm) =
        forearm := by
  rw [Pose.mul_assoc (rigid_link _ _ _ _).inverse (rigid_link _ _ _ _).inverse,
    Pose.mul_assoc (rigid_link _ _ _ _) (rigid_link _ _ _ _),
    Pose.mul_inverse_mul (rigid_link _ _ _ _), Pose.mul_inverse_mul (rigid_link _ _ _ _)]

theorem wrist_planar (arm : OffsetWrist ℝ) (q2 q3 q4 : ℝ) :
    ((arm.link 2 0).transform q3).inverse * ((arm.link 1 0).transform q2).inverse *
      arm.planar q2 q3 q4 = (arm.link 3 Scalar.quarterTurn).transform q4 := by
  have h2 := rigid_link arm 1 0 q2
  have h3 := rigid_link arm 2 0 q3
  rw [Pose.mul_assoc h3.inverse h2.inverse, planar, Pose.mul_assoc h2 h3,
    ← Pose.mul_assoc h2.inverse h2, h2.inverse_mul, Pose.one_mul, ← Pose.mul_assoc h3.inverse h3,
    h3.inverse_mul, Pose.one_mul]

section Forearm

variable {forearm : Pose ℝ} {q2 q3 q4 : ℝ}

/-- Upper arm and forearm bring axis 4 to the place of an upright pose. -/
theorem Upright.applyPoint_links (hupright : arm.Upright forearm) (harm : arm.Standard)
    (h3 : Real.cos q3 = arm.elbowCosine forearm)
    (h2 : Scalar.arctan2 forearm.position.y forearm.position.x -
      Scalar.arctan2 (arm.lengths 2 * Real.sin q3)
        (arm.lengths 1 + arm.lengths 2 * Real.cos q3) = q2) :
    ((arm.link 1 0).transform q2 * (arm.link 2 0).transform q3).applyPoint
      ⟨0, 0, arm.offsets 3⟩ = forearm.position := by
  have hlength : (arm.lengths 1 + arm.lengths 2 * Real.cos q3) ^ 2 +
      (arm.lengths 2 * Real.sin q3) ^ 2 = forearm.position.x ^ 2 + forearm.position.y ^ 2 := by
    have hlaw := harm.elbowCosine_eq forearm
    rw [← h3] at hlaw
    linear_combination hlaw + arm.lengths 2 ^ 2 * Real.sin_sq_add_cos_sq q3
  obtain ⟨hx, hy⟩ := Exact.turn_onto hlength h2.symm
  rw [harm.applyPoint_links, hx, hy, ← hupright.offset]

/-- The axes 2 to 4 make every upright pose whose triangle closes. -/
theorem same_planar_planeAxes (harm : arm.Standard) (hupright : arm.Upright forearm)
    (h : |arm.elbowCosine forearm| ≤ 1) {elbow : Bool}
    (haxes : (arm.planeAxes forearm elbow).1 = (q2, q3, q4)) :
    (arm.planar q2 q3 q4).Same forearm := by
  rw [planeAxes_eq h] at haxes
  obtain ⟨h2, hrest⟩ := Prod.mk.inj haxes
  obtain ⟨h3, h4⟩ := Prod.mk.inj hrest
  rw [h3] at h2 h4
  rw [h2] at h4
  have hcosine : Real.cos q3 = arm.elbowCosine forearm := by
    rw [← h3, Exact.cos_mirrored_arccos elbow h]
  have hplace := hupright.applyPoint_links harm hcosine h2
  have hlinks := (rigid_link arm 1 0 q2).mul (rigid_link arm 2 0 q3)
  have hback := arm.links_mul_wrist q2 q3 forearm
  have hrigid := ((rigid_link arm 2 0 q3).inverse.mul (rigid_link arm 1 0 q2).inverse).mul
    hupright.rigid
  -- What is left of the pose behind upper arm and forearm is a turn of axis 4.
  generalize ((arm.link 2 0).transform q3).inverse * ((arm.link 1 0).transform q2).inverse *
    forearm = wrist at hback hrigid h4
  have hposition : wrist.position = ⟨0, 0, arm.offsets 3⟩ := by
    refine hlinks.applyPoint_injective ?_
    rw [hplace, ← Pose.position_mul, hback]
  have haxis : wrist.rotation.apply Vec3.yAxis = Vec3.zAxis := by
    refine Rotation.Proper.apply_injective hlinks ?_
    rw [← Pose.apply_rotation_mul hlinks hrigid, hback, hupright.axis,
      Pose.apply_rotation_mul (rigid_link _ _ _ _) (rigid_link _ _ _ _), apply_zAxis_link,
      apply_zAxis_link]
  have hlast : ((arm.link 3 Scalar.quarterTurn).transform q4).Same wrist := by
    rw [harm.transform_three, ← h4]
    exact ⟨hposition.symm, same_of_upright hrigid haxis⟩
  rw [← hback]
  exact (Pose.Same.refl _).mul hlast

theorem Standard.elbowCosine_planar (harm : arm.Standard)
    (hposition : (arm.planar q2 q3 q4).position = forearm.position) :
    arm.elbowCosine forearm = Real.cos q3 := by
  refine mul_left_cancel₀ (mul_ne_zero two_ne_zero (mul_ne_zero harm.upper harm.forearm)) ?_
  rw [harm.elbowCosine_eq, ← hposition, harm.position_planar]
  linear_combination ((arm.lengths 1 + arm.lengths 2 * Real.cos q3) ^ 2 +
    (arm.lengths 2 * Real.sin q3) ^ 2) * Real.sin_sq_add_cos_sq q2 +
    arm.lengths 2 ^ 2 * Real.sin_sq_add_cos_sq q3

/-- Axis 2 is found from the place of axis 4, unless they fall together. -/
theorem Standard.turned_axisTwo (harm : arm.Standard)
    (hposition : (arm.planar q2 q3 q4).position = forearm.position)
    (haxis : 0 < Scalar.hypot forearm.position.x forearm.position.y) {q3' : ℝ}
    (h3 : (q3' : Real.Angle) = q3) :
    ((Scalar.arctan2 forearm.position.y forearm.position.x -
      Scalar.arctan2 (arm.lengths 2 * Real.sin q3')
        (arm.lengths 1 + arm.lengths 2 * Real.cos q3') : ℝ) : Real.Angle) = q2 := by
  rw [harm.position_planar] at hposition
  have hlength : Scalar.hypot (arm.lengths 1 + arm.lengths 2 * Real.cos q3)
      (arm.lengths 2 * Real.sin q3) = Scalar.hypot forearm.position.x forearm.position.y := by
    rw [← hposition, Exact.hypot_turn]
  rw [Exact.cos_eq_of_coe_eq h3, Exact.sin_eq_of_coe_eq h3]
  exact Exact.coe_turn_onto (hlength ▸ haxis) (by rw [← hposition]) (by rw [← hposition])

/-- The axes 2 to 4 are found from the pose of axis 4, unless it lies on axis 2. The flag tells the
side that axis 3 bends to. -/
theorem turned_planeAxes (harm : arm.Standard) {elbow : Bool}
    (hforearm : (arm.planar q2 q3 q4).Same forearm)
    (haxis : 0 < Scalar.hypot forearm.position.x forearm.position.y)
    (helbow : 0 ≤ Exact.mirrored elbow (Real.sin q3)) :
    arm.elbowCosine forearm = Real.cos q3 ∧ (arm.planeAxes forearm elbow).2 = [] ∧
      ∀ q2' q3' q4', (arm.planeAxes forearm elbow).1 = (q2', q3', q4') →
        Angle.Turned [q2', q3', q4'] [q2, q3, q4] := by
  have hcosine := harm.elbowCosine_planar hforearm.1
  have h3 := Exact.coe_mirrored_arccos helbow
  rw [← hcosine] at h3
  have h2 := harm.turned_axisTwo hforearm.1 haxis h3
  refine ⟨hcosine, ?_⟩
  rw [planeAxes_eq (hcosine ▸ Real.abs_cos_le_one q3)]
  refine ⟨rfl, ?_⟩
  rintro q2' q3' q4' ⟨⟩
  have hwrist := ((Link.same_transform (arm.link 2 0) h3).inverse.mul
    (Link.same_transform (arm.link 1 0) h2).inverse).mul hforearm.symm
  rw [arm.wrist_planar q2 q3 q4] at hwrist
  refine .cons h2 (.cons h3 (.cons ?_ .nil))
  rw [hwrist.2.basis, harm.transform_three, basis_aboutZ_mul_aboutX]
  exact Exact.coe_arctan2 one_pos (one_mul _).symm (one_mul _).symm

end Forearm

end Toolpath.OffsetWrist
