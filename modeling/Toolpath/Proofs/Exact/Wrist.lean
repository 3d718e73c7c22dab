import Toolpath.Proofs.Exact.Matrices
import Toolpath.Proofs.Exact.Directions

/-!
Spherical wrists. The three axes of a wrist turn the flange by `wristTurn`, and the wrist centre
stays where the arm has put it (`wrist_transforms`). So an arm is on a flange pose once its wrist
centre is and its wrist has turned by the rotation that is left (`same_of_wrist`).

`wristAngles` splits a rotation matrix exactly where it reports no fault, except for a wrist that is
folded back onto itself: there the last column and the last row have no direction, and one rotation
alone is split rightly (`wristAngles_exact_iff`). It finds every bent wrist again
(`turned_wristAngles`).
-/

set_option autoImplicit false
set_option relaxedAutoImplicit false

namespace Toolpath

/-- The rotation of the flange against the forearm, by the three axes of a wrist. -/
noncomputable def wristTurn (q4 q5 q6 : ℝ) : Rotation ℝ :=
  .aboutZ q4 * .aboutY q5 * .aboutZ q6

theorem proper_wristTurn (q4 q5 q6 : ℝ) : (wristTurn q4 q5 q6).Proper :=
  ((Rotation.proper_aboutZ q4).mul (Rotation.proper_aboutY q5)).mul (Rotation.proper_aboutZ q6)

theorem apply_wristTurn (q4 q5 q6 : ℝ) (v : Vec3 ℝ) : (wristTurn q4 q5 q6).apply v =
    (Rotation.aboutZ q4).apply ((Rotation.aboutY q5).apply ((Rotation.aboutZ q6).apply v)) := by
  rw [wristTurn, ((Rotation.proper_aboutZ q4).mul (Rotation.proper_aboutY q5)).apply_mul
    (Rotation.proper_aboutZ q6), (Rotation.proper_aboutZ q4).apply_mul (Rotation.proper_aboutY q5)]

theorem basis_wristTurn (q4 q5 q6 : ℝ) : (wristTurn q4 q5 q6).basis =
    { x := ⟨Real.cos q5 * Real.cos q6 * Real.cos q4 - Real.sin q6 * Real.sin q4,
        Real.cos q5 * Real.cos q6 * Real.sin q4 + Real.sin q6 * Real.cos q4,
        -(Real.sin q5 * Real.cos q6)⟩
      y := ⟨-(Real.cos q5 * Real.sin q6 * Real.cos q4) - Real.cos q6 * Real.sin q4,
        -(Real.cos q5 * Real.sin q6 * Real.sin q4) + Real.cos q6 * Real.cos q4,
        Real.sin q5 * Real.sin q6⟩
      z := ⟨Real.sin q5 * Real.cos q4, Real.sin q5 * Real.sin q4, Real.cos q5⟩ } := by
  rw [(proper_wristTurn q4 q5 q6).basis_eq]
  simp only [apply_wristTurn, Rotation.apply_aboutZ, Rotation.apply_aboutY, Vec3.xAxis, Vec3.yAxis,
    Vec3.zAxis]
  congr 2 <;> ring

/-! ### The split of a rotation -/

/-- The sign of the middle axis of a wrist. -/
noncomputable def wristSign (positive : Bool) : ℝ :=
  if positive then 1 else -1

theorem wristSign_mul_self (positive : Bool) : wristSign positive * wristSign positive = 1 := by
  cases positive <;> norm_num [wristSign]

theorem exists_wristSign_pos {value : ℝ} (h : value ≠ 0) :
    ∃ positive, 0 < wristSign positive * value := by
  rcases lt_or_gt_of_ne h with hneg | hpos
  · exact ⟨false, by simpa [wristSign] using hneg⟩
  · exact ⟨true, by simpa [wristSign] using hpos⟩

/-- A wrist that is not straight is split without a fault. -/
theorem wristAngles_eq {residual : Basis ℝ} (positive : Bool)
    (h : singularityTolerance ≤ |residual.z.z - 1|) : wristAngles residual positive =
      ([Scalar.arctan2 (wristSign positive * residual.z.y) (wristSign positive * residual.z.x),
        Scalar.arctan2 (wristSign positive * Real.sqrt (1 - residual.z.z * residual.z.z))
          residual.z.z,
        Scalar.arctan2 (wristSign positive * residual.y.z)
          (-wristSign positive * residual.x.z)], []) := by
  have hroot : Scalar.sqrt (Scalar.larger (1 - residual.z.z * residual.z.z) 0) =
      Real.sqrt (1 - residual.z.z * residual.z.z) := by
    rw [Exact.larger_eq_max]
    show Real.sqrt _ = _
    rcases le_total (1 - residual.z.z * residual.z.z) 0 with hneg | hpos
    · rw [max_eq_right hneg, Real.sqrt_zero, Real.sqrt_eq_zero_of_nonpos hneg]
    · rw [max_eq_left hpos]
  rw [wristAngles, Exact.abs_eq, if_neg h.not_gt, hroot]
  rfl

theorem le_abs_of_wristAngles {residual : Basis ℝ} {positive : Bool}
    (h : (wristAngles residual positive).2 = []) :
    singularityTolerance ≤ |residual.z.z - 1| := by
  by_contra hstraight
  rw [wristAngles, Exact.abs_eq, if_pos (not_le.mp hstraight)] at h
  exact List.cons_ne_nil _ _ h

theorem singularityTolerance_pos : (0 : ℝ) < singularityTolerance := by
  norm_num [singularityTolerance]

/-- A wrist that is neither straight nor folded back is bent. -/
theorem one_sub_sq_ne_zero {x : ℝ} (haway : singularityTolerance ≤ |x - 1|) (hfolded : x ≠ -1) :
    1 - x ^ 2 ≠ 0 := by
  intro hzero
  have hproduct : (1 - x) * (x - -1) = 0 := by linear_combination hzero
  rcases mul_eq_zero.mp hproduct with hone | hminus
  · rw [sub_eq_zero.mp hone, sub_self, abs_zero] at haway
    exact singularityTolerance_pos.not_ge haway
  · exact hfolded (sub_eq_zero.mp hminus)

theorem sin_ne_zero_of_bent {q5 : ℝ} (haway : singularityTolerance ≤ |Real.cos q5 - 1|)
    (hfolded : Real.cos q5 ≠ -1) : Real.sin q5 ≠ 0 := by
  intro hzero
  refine one_sub_sq_ne_zero haway hfolded ?_
  rw [← Real.sin_sq, hzero, zero_pow two_ne_zero]

/-- The direction of a point, seen from the side that the wrist is bent to. -/
theorem direction_wristSign (positive : Bool) {x y r : ℝ} (hr : 0 ≤ r)
    (h : r * r = x ^ 2 + y ^ 2) :
    let angle := Scalar.arctan2 (wristSign positive * y) (wristSign positive * x)
    r * Real.cos angle = wristSign positive * x ∧ r * Real.sin angle = wristSign positive * y := by
  have hlength : Scalar.hypot (wristSign positive * x) (wristSign positive * y) = r := by
    refine Exact.hypot_eq_of_mul_self hr ?_
    linear_combination h - (x ^ 2 + y ^ 2) * wristSign_mul_self positive
  have hcos := Exact.hypot_mul_cos_arctan2 (wristSign positive * x) (wristSign positive * y)
  have hsin := Exact.hypot_mul_sin_arctan2 (wristSign positive * x) (wristSign positive * y)
  rw [hlength] at hcos hsin
  exact ⟨hcos, hsin⟩

/-- The middle axis is bent to the side that is selected. -/
theorem cos_sin_middleAxis (positive : Bool) {x : ℝ} (hx : x ^ 2 ≤ 1) :
    let angle := Scalar.arctan2 (wristSign positive * Real.sqrt (1 - x * x)) x
    Real.cos angle = x ∧ Real.sin angle = wristSign positive * Real.sqrt (1 - x * x) := by
  have hroot : Real.sqrt (1 - x * x) * Real.sqrt (1 - x * x) = 1 - x * x :=
    Real.mul_self_sqrt (by linarith)
  have hlength : Scalar.hypot x (wristSign positive * Real.sqrt (1 - x * x)) = 1 := by
    refine Exact.hypot_eq_of_mul_self zero_le_one ?_
    linear_combination -wristSign positive * wristSign positive * hroot -
      (1 - x * x) * wristSign_mul_self positive
  have hcos := Exact.hypot_mul_cos_arctan2 x (wristSign positive * Real.sqrt (1 - x * x))
  have hsin := Exact.hypot_mul_sin_arctan2 x (wristSign positive * Real.sqrt (1 - x * x))
  rw [hlength, one_mul] at hcos hsin
  exact ⟨hcos, hsin⟩

/-- Where it reports no fault the split gives the rotation back, with the middle axis bent to the
side that is selected, for a wrist that is not folded back onto itself. -/
theorem wristTurn_of_isRotation {m : Basis ℝ} (hm : m.IsRotation) {positive : Bool}
    (hfolded : m.z.z ≠ -1) (h : (wristAngles m positive).2 = []) :
    ∃ q4 q5 q6, (wristAngles m positive).1 = [q4, q5, q6] ∧
      0 < wristSign positive * Real.sin q5 ∧ (wristTurn q4 q5 q6).basis = m := by
  have haway := le_abs_of_wristAngles h
  have hsign := wristSign_mul_self positive
  have hcolumn := hm.sq_add_sq_column
  have hrow := hm.sq_add_sq_row
  have hmiddle : m.z.z ^ 2 ≤ 1 := by nlinarith [sq_nonneg m.z.x, sq_nonneg m.z.y]
  have hbent := one_sub_sq_ne_zero haway hfolded
  -- The outer axes see the last column and the last row at the distance `r`, the size of the sine
  -- of the middle axis.
  set r := Real.sqrt (1 - m.z.z * m.z.z) with hr
  have hroot : r * r = 1 - m.z.z * m.z.z := Real.mul_self_sqrt (by linarith)
  have hne : r ≠ 0 := fun hzero ↦ hbent (by linear_combination r * hzero - hroot)
  have hpos : 0 < r := lt_of_le_of_ne (Real.sqrt_nonneg _) hne.symm
  obtain ⟨hcos4, hsin4⟩ := direction_wristSign positive hpos.le
    (show r * r = m.z.x ^ 2 + m.z.y ^ 2 by linear_combination hroot - hcolumn)
  obtain ⟨hcos6, hsin6⟩ := direction_wristSign positive hpos.le
    (show r * r = (-m.x.z) ^ 2 + m.y.z ^ 2 by linear_combination hroot - hrow)
  obtain ⟨hcos5, hsin5⟩ := cos_sin_middleAxis positive hmiddle
  rw [← hr] at hcos5 hsin5
  refine ⟨_, _, _, by rw [wristAngles_eq positive haway], ?_, ?_⟩
  · rw [hsin5, ← mul_assoc, hsign, one_mul]
    exact hpos
  rw [← neg_mul_comm] at hcos6 hsin6
  refine (proper_wristTurn _ _ _).isRotation.eq_of_bent hm ?_ ?_ ?_ hbent
  · rw [basis_wristTurn]
    refine Vec3.ext ?_ ?_ hcos5
    · show Real.sin _ * _ = _
      rw [hsin5]
      linear_combination wristSign positive * hcos4 + m.z.x * hsign
    · show Real.sin _ * _ = _
      rw [hsin5]
      linear_combination wristSign positive * hsin4 + m.z.y * hsign
  · rw [basis_wristTurn]
    show -(Real.sin _ * _) = _
    rw [hsin5]
    linear_combination -wristSign positive * hcos6 + m.x.z * hsign
  · rw [basis_wristTurn]
    show Real.sin _ * _ = _
    rw [hsin5]
    linear_combination wristSign positive * hsin6 + m.y.z * hsign

theorem wristTurn_of_wristAngles {q : Rotation ℝ} (hq : q.Proper) {positive : Bool}
    (hfolded : q.basis.z.z ≠ -1) (h : (wristAngles q.basis positive).2 = []) :
    ∃ q4 q5 q6, (wristAngles q.basis positive).1 = [q4, q5, q6] ∧
      (wristTurn q4 q5 q6).basis = q.basis := by
  obtain ⟨q4, q5, q6, hangles, -, hturn⟩ := wristTurn_of_isRotation hq.isRotation hfolded h
  exact ⟨q4, q5, q6, hangles, hturn⟩

/-- A wrist that is folded back onto itself is split as if the outer axes stood at zero, whatever
rotation is left. -/
theorem wristAngles_folded {m : Basis ℝ} (hm : m.IsRotation) (positive : Bool)
    (hfolded : m.z.z = -1) : wristAngles m positive = ([0, Real.pi, 0], []) := by
  have hcolumn := hm.sq_add_sq_column
  have hrow := hm.sq_add_sq_row
  rw [hfolded] at hcolumn hrow
  have hzx : m.z.x = 0 := by nlinarith [sq_nonneg m.z.x, sq_nonneg m.z.y]
  have hzy : m.z.y = 0 := by nlinarith [sq_nonneg m.z.x, sq_nonneg m.z.y]
  have hxz : m.x.z = 0 := by nlinarith [sq_nonneg m.x.z, sq_nonneg m.y.z]
  have hyz : m.y.z = 0 := by nlinarith [sq_nonneg m.x.z, sq_nonneg m.y.z]
  have haway : singularityTolerance ≤ |m.z.z - 1| := by
    rw [hfolded]
    norm_num [singularityTolerance]
  have hroot : Real.sqrt (1 - -1 * -1 : ℝ) = 0 := by norm_num
  rw [wristAngles_eq positive haway, hfolded, hzx, hzy, hxz, hyz, hroot, mul_zero, mul_zero,
    Exact.arctan2_zero_of_nonneg le_rfl, Exact.arctan2_zero_of_neg neg_one_lt_zero]

/-- The three axes of a wrist as matrices. -/
theorem matrix_wristTurn (q4 q5 q6 : ℝ) :
    (wristTurn q4 q5 q6).basis.matrix = turnZ q4 * turnY q5 * turnZ q6 := by
  rw [basis_wristTurn]
  ext row column
  fin_cases row <;> fin_cases column <;>
    simp [Basis.matrix, turnZ, turnY, Matrix.mul_apply, Fin.sum_univ_three] <;> ring

/-- A rotation matrix that is split without a fault is the product of the turns by the three angles,
and the middle axis is bent to the side that is selected. The one exception is a wrist that is folded
back onto itself: of its rotations only the half turn about Y is split rightly. -/
theorem wristAngles_exact_iff {m : Basis ℝ} (hm : m.IsRotation) (positive : Bool)
    (h : (wristAngles m positive).2 = []) :
    ∃ q4 q5 q6, (wristAngles m positive).1 = [q4, q5, q6] ∧
      (Real.sin q5 ≠ 0 → 0 < wristSign positive * Real.sin q5) ∧
      (turnZ q4 * turnY q5 * turnZ q6 = m.matrix ↔
        m.z.z ≠ -1 ∨ m.matrix = turnY Real.pi) := by
  by_cases hfolded : m.z.z = -1
  · have hturn : turnZ 0 * turnY Real.pi * turnZ 0 = turnY Real.pi := by
      rw [turnZ_zero, one_mul, mul_one]
    rw [wristAngles_folded hm positive hfolded]
    refine ⟨0, Real.pi, 0, rfl, fun hbent ↦ absurd Real.sin_pi hbent, ?_⟩
    rw [hturn, or_iff_right (not_not_intro hfolded), eq_comm]
  · obtain ⟨q4, q5, q6, hangles, hside, hturn⟩ := wristTurn_of_isRotation hm hfolded h
    refine ⟨q4, q5, q6, hangles, fun _ ↦ hside, fun _ ↦ .inl hfolded, fun _ ↦ ?_⟩
    rw [← matrix_wristTurn, hturn]

/-- A quarter turn about Z after the half turn about Y. -/
def foldedBack : Basis ℝ :=
  ⟨⟨0, -1, 0⟩, ⟨-1, 0, 0⟩, ⟨0, 0, -1⟩⟩

theorem isRotation_foldedBack : foldedBack.IsRotation := by
  refine Matrix.mem_specialOrthogonalGroup_iff.mpr
    ⟨(Matrix.mem_orthogonalGroup_iff (Fin 3) ℝ).mpr ?_, ?_⟩
  · ext row column
    fin_cases row <;> fin_cases column <;>
      simp [Basis.matrix, foldedBack, Matrix.mul_apply, Fin.sum_univ_three]
  · simp [Basis.matrix, foldedBack, Matrix.det_fin_three]

/-- A folded wrist is split without a fault, and the three axes turn to another rotation. -/
theorem wristAngles_exact_foldedBack : foldedBack.IsRotation ∧
    (wristAngles foldedBack true).2 = [] ∧
    ∃ q4 q5 q6, (wristAngles foldedBack true).1 = [q4, q5, q6] ∧
      turnZ q4 * turnY q5 * turnZ q6 ≠ foldedBack.matrix := by
  have hfaults : (wristAngles foldedBack true).2 = [] := by
    rw [wristAngles_folded isRotation_foldedBack true rfl]
  obtain ⟨q4, q5, q6, hangles, -, hexact⟩ :=
    wristAngles_exact_iff isRotation_foldedBack true hfaults
  refine ⟨isRotation_foldedBack, hfaults, q4, q5, q6, hangles, fun hturn ↦ ?_⟩
  rcases hexact.mp hturn with hfolded | hhalf
  · exact hfolded rfl
  · have hentry : foldedBack.matrix 0 1 = turnY Real.pi 0 1 := by rw [hhalf]
    have hzero : (-1 : ℝ) = 0 := hentry
    norm_num at hzero

/-- A bent wrist is found again, with the sign of its middle axis. -/
theorem turned_wristAngles (q4 q6 : ℝ) {q5 : ℝ} (haway : singularityTolerance ≤ |Real.cos q5 - 1|)
    {positive : Bool} (hsign : 0 < wristSign positive * Real.sin q5) :
    (wristAngles (wristTurn q4 q5 q6).basis positive).2 = [] ∧
      Angle.Turned (wristAngles (wristTurn q4 q5 q6).basis positive).1 [q4, q5, q6] := by
  have hcos : (wristTurn q4 q5 q6).basis.z.z = Real.cos q5 := by rw [basis_wristTurn]
  have hunit := wristSign_mul_self positive
  have hroot : Real.sqrt (1 - Real.cos q5 * Real.cos q5) = wristSign positive * Real.sin q5 := by
    have hsquare : 1 - Real.cos q5 * Real.cos q5 =
        (wristSign positive * Real.sin q5) * (wristSign positive * Real.sin q5) := by
      linear_combination -Real.sin_sq_add_cos_sq q5 - Real.sin q5 ^ 2 * hunit
    rw [hsquare, Real.sqrt_mul_self hsign.le]
  rw [wristAngles_eq positive (by rwa [hcos]), basis_wristTurn]
  refine ⟨rfl, .cons ?_ (.cons ?_ (.cons ?_ .nil))⟩
  · exact Exact.coe_arctan2 hsign (by ring) (by ring)
  · refine Exact.coe_arctan2 one_pos (one_mul _).symm ?_
    rw [hroot]
    linear_combination Real.sin q5 * hunit
  · exact Exact.coe_arctan2 hsign (by ring) (by ring)

/-! ### The links of a wrist -/

section Links

variable (fore hand q4 q5 q6 : ℝ)

/-- The links of a wrist turn the flange about the wrist centre. -/
theorem wrist_transforms :
    (⟨0, fore, -Scalar.quarterTurn⟩ : Link ℝ).transform q4 *
        (⟨0, 0, Scalar.quarterTurn⟩ : Link ℝ).transform q5 *
        (⟨0, hand, 0⟩ : Link ℝ).transform q6 =
      ⟨⟨0, 0, fore⟩ + (wristTurn q4 q5 q6).apply ⟨0, 0, hand⟩, wristTurn q4 q5 q6⟩ := by
  ext1
  · rw [Pose.position_mul, Pose.applyPoint_mul (Link.rigid_transform _ _)
      (Link.rigid_transform _ _), Link.transform_eq _ q6, apply_wristTurn]
    simp only [Link.applyPoint_transform, Rotation.apply_aboutZ, Rotation.apply_aboutY,
      Real.cos_neg, Real.sin_neg, Exact.cos_quarterTurn, Exact.sin_quarterTurn,
      Vec3.add_def]
    congr 1 <;> ring
  · rw [Pose.rotation_mul, Pose.rotation_mul, Link.transform_eq, Link.transform_eq,
      Link.transform_eq, Exact.quarterTurn_eq, Rotation.aboutX_zero, mul_one, wristTurn,
      ← Rotation.aboutX_mul_aboutZ_mul_aboutX q5]
    simp only [mul_assoc]

variable {fore hand q4 q5 q6} {elbow flange : Pose ℝ}

theorem Vec3.eq_zAxis_scale (length : ℝ) : (⟨0, 0, length⟩ : Vec3 ℝ) = zAxis.scale length := by
  simp [Vec3.scale, Vec3.zAxis]

theorem Rotation.apply_scale (q : Rotation ℝ) (v : Vec3 ℝ) (factor : ℝ) :
    q.apply (v.scale factor) = (q.apply v).scale factor := by
  ext <;> simp only [apply_def, Vec3.scale] <;> ring

/-- The flange behind the wrist of an arm, from its wrist centre and the rotation of its wrist. -/
theorem wrist_flange (helbow : elbow.Rigid) :
    elbow * (⟨0, fore, -Scalar.quarterTurn⟩ : Link ℝ).transform q4 *
        (⟨0, 0, Scalar.quarterTurn⟩ : Link ℝ).transform q5 *
        (⟨0, hand, 0⟩ : Link ℝ).transform q6 =
      ⟨elbow.applyPoint ⟨0, 0, fore⟩ +
          ((elbow.rotation * wristTurn q4 q5 q6).apply Vec3.zAxis).scale hand,
        elbow.rotation * wristTurn q4 q5 q6⟩ := by
  rw [Pose.mul_assoc (helbow.mul (Link.rigid_transform _ q4)) (Link.rigid_transform _ q5),
    Pose.mul_assoc helbow (Link.rigid_transform _ q4), ← Pose.mul_assoc (Link.rigid_transform _ q4)
      (Link.rigid_transform _ q5), wrist_transforms, Pose.mul_def]
  congr 1
  rw [Rotation.apply_add, Vec3.eq_zAxis_scale hand, ← Rotation.apply_scale,
    Rotation.Proper.apply_mul helbow (proper_wristTurn q4 q5 q6), Pose.applyPoint]
  abel

/-- An arm is on a flange pose when its wrist centre is in place and its wrist has turned by the
rotation that is left. -/
theorem same_of_wrist (helbow : elbow.Rigid) (hflange : flange.Rigid)
    (hcentre : elbow.applyPoint ⟨0, 0, fore⟩ = flange.position - flange.zAxis.scale hand)
    (hturn : (wristTurn q4 q5 q6).basis =
      flange.rotation.basis.relativeTo elbow.rotation.basis) :
    (elbow * (⟨0, fore, -Scalar.quarterTurn⟩ : Link ℝ).transform q4 *
        (⟨0, 0, Scalar.quarterTurn⟩ : Link ℝ).transform q5 *
        (⟨0, hand, 0⟩ : Link ℝ).transform q6).Same flange := by
  rw [Rotation.basis_relativeTo, ← (proper_wristTurn q4 q5 q6).same_iff_basis
    (Rotation.Proper.mul (Rotation.Proper.inverse helbow) hflange)] at hturn
  have hrotation : (elbow.rotation * wristTurn q4 q5 q6).Same flange.rotation := by
    have hboth := (Rotation.Same.refl elbow.rotation).mul hturn
    rwa [← mul_assoc, Rotation.Proper.mul_inverse helbow, one_mul] at hboth
  rw [wrist_flange helbow]
  refine ⟨?_, hrotation⟩
  show elbow.applyPoint ⟨0, 0, fore⟩ + _ = flange.position
  rw [hcentre, hrotation.apply]
  exact sub_add_cancel _ _

/-- The wrist centre and the rotation of the wrist, from the flange behind it. -/
theorem wrist_of_flange (helbow : elbow.Rigid) (hflange : flange =
      elbow * (⟨0, fore, -Scalar.quarterTurn⟩ : Link ℝ).transform q4 *
        (⟨0, 0, Scalar.quarterTurn⟩ : Link ℝ).transform q5 *
        (⟨0, hand, 0⟩ : Link ℝ).transform q6) :
    flange.position - flange.zAxis.scale hand = elbow.applyPoint ⟨0, 0, fore⟩ ∧
      flange.rotation.basis.relativeTo elbow.rotation.basis = (wristTurn q4 q5 q6).basis := by
  rw [wrist_flange helbow] at hflange
  rw [hflange, Rotation.basis_relativeTo]
  refine ⟨add_sub_cancel_right _ _, ?_⟩
  show (elbow.rotation.inverse * (elbow.rotation * wristTurn q4 q5 q6)).basis = _
  rw [← mul_assoc, Rotation.Proper.inverse_mul helbow, one_mul]

end Links

end Toolpath
