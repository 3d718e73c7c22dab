import Toolpath.Proofs.Exact.Turning

/-!
Rotations by their columns, and links by what they do to points. The columns of a proper rotation
are the images of the axes (`Rotation.Proper.basis_eq`), and they determine the rotation
(`Rotation.Proper.same_iff_basis`). `Link.applyPoint_transform` writes out the point map of a link; a
chain of links maps points one link after the other (`Pose.applyPoint_mul`).
-/

set_option autoImplicit false
set_option relaxedAutoImplicit false

namespace Toolpath

/-! ### Rotations about the axes -/

namespace Rotation

theorem aboutY_eq (angle : ℝ) :
    aboutY angle = ⟨Real.cos (angle / 2), 0, Real.sin (angle / 2), 0⟩ := by
  rw [← Exact.two_eq]
  ext
  · rfl
  · exact zero_mul _
  · exact one_mul _
  · exact zero_mul _

theorem proper_aboutY (angle : ℝ) : (aboutY angle).Proper := by
  rw [Proper, aboutY_eq, dot]
  linear_combination Real.sin_sq_add_cos_sq (angle / 2)

theorem cos_eq_half (angle : ℝ) :
    Real.cos angle = Real.cos (angle / 2) ^ 2 - Real.sin (angle / 2) ^ 2 := by
  rw [← Real.cos_two_mul', mul_div_cancel₀ angle two_ne_zero]

theorem sin_eq_half (angle : ℝ) :
    Real.sin angle = 2 * Real.sin (angle / 2) * Real.cos (angle / 2) := by
  rw [← Real.sin_two_mul, mul_div_cancel₀ angle two_ne_zero]

theorem apply_aboutX (angle : ℝ) (v : Vec3 ℝ) : (aboutX angle).apply v =
    ⟨v.x, v.y * Real.cos angle - v.z * Real.sin angle,
      v.y * Real.sin angle + v.z * Real.cos angle⟩ := by
  have hunit := Real.sin_sq_add_cos_sq (angle / 2)
  rw [aboutX_eq, apply_def, cos_eq_half angle, sin_eq_half angle]
  ext
  · ring
  · linear_combination -v.y * hunit
  · linear_combination -v.z * hunit

theorem apply_aboutY (angle : ℝ) (v : Vec3 ℝ) : (aboutY angle).apply v =
    ⟨v.z * Real.sin angle + v.x * Real.cos angle, v.y,
      v.z * Real.cos angle - v.x * Real.sin angle⟩ := by
  have hunit := Real.sin_sq_add_cos_sq (angle / 2)
  rw [aboutY_eq, apply_def, cos_eq_half angle, sin_eq_half angle]
  ext
  · linear_combination -v.x * hunit
  · ring
  · linear_combination -v.z * hunit

theorem apply_aboutZ (angle : ℝ) (v : Vec3 ℝ) : (aboutZ angle).apply v =
    ⟨v.x * Real.cos angle - v.y * Real.sin angle,
      v.x * Real.sin angle + v.y * Real.cos angle, v.z⟩ := by
  have hunit := Real.sin_sq_add_cos_sq (angle / 2)
  rw [aboutZ_eq, apply_def, cos_eq_half angle, sin_eq_half angle]
  ext
  · linear_combination -v.x * hunit
  · linear_combination -v.y * hunit
  · ring

/-- A turn about Z between quarter turns back and forth about X is a turn about Y. -/
theorem aboutX_mul_aboutZ_mul_aboutX (angle : ℝ) :
    aboutX (-(Real.pi / 2)) * aboutZ angle * aboutX (Real.pi / 2) = aboutY angle := by
  have hunit := Real.sin_sq_add_cos_sq (Real.pi / 2 / 2)
  have hcos := cos_eq_half (Real.pi / 2)
  have hsin := sin_eq_half (Real.pi / 2)
  rw [Real.cos_pi_div_two] at hcos
  rw [Real.sin_pi_div_two] at hsin
  rw [aboutX_eq, aboutX_eq, aboutZ_eq, aboutY_eq, neg_div, Real.cos_neg, Real.sin_neg, mul_def,
    mul_def]
  ext
  · linear_combination Real.cos (angle / 2) * hunit
  · ring
  · linear_combination -Real.sin (angle / 2) * hsin
  · linear_combination -Real.sin (angle / 2) * hcos

/-! ### Columns -/

section Columns

variable {p q : Rotation ℝ}

theorem Proper.inverse_apply_apply (hq : q.Proper) (v : Vec3 ℝ) :
    q.inverse.apply (q.apply v) = v := by
  rw [← hq.inverse.apply_mul hq, hq.inverse_mul, one_apply]

theorem Proper.apply_injective (hq : q.Proper) : Function.Injective q.apply :=
  Function.LeftInverse.injective hq.inverse_apply_apply

theorem Proper.apply_inverse_apply (hq : q.Proper) (v : Vec3 ℝ) :
    q.apply (q.inverse.apply v) = v := by
  rw [← hq.apply_mul hq.inverse, hq.mul_inverse, one_apply]

theorem Proper.basis_eq (hq : q.Proper) :
    q.basis = ⟨q.apply Vec3.xAxis, q.apply Vec3.yAxis, q.apply Vec3.zAxis⟩ := by
  rw [hq.apply_eq_basis, hq.apply_eq_basis, hq.apply_eq_basis]
  simp [Vec3.scale, Vec3.add_def, Vec3.xAxis, Vec3.yAxis, Vec3.zAxis]

/-- The columns determine the rotation. -/
theorem Proper.same_iff_basis (hp : p.Proper) (hq : q.Proper) : p.Same q ↔ p.basis = q.basis := by
  refine ⟨Same.basis, fun h ↦ (hp.same_iff_apply hq).mpr fun v ↦ ?_⟩
  rw [hp.apply_eq_basis, hq.apply_eq_basis, h]

theorem basis_relativeTo (p q : Rotation ℝ) :
    q.basis.relativeTo p.basis = (p.inverse * q).basis := by
  simp only [Basis.relativeTo, basis, Vec3.dot, mul_def, inverse, Exact.two_eq]
  congr 2 <;> ring

theorem Proper.dot_apply (hq : q.Proper) (v w : Vec3 ℝ) :
    (q.apply v).dot (q.apply w) = v.dot w := by
  have hunit : q.i * q.i + q.j * q.j + q.k * q.k + q.w * q.w = 1 := hq
  have hscaled : (q.apply v).dot (q.apply w) =
      (q.i * q.i + q.j * q.j + q.k * q.k + q.w * q.w) ^ 2 * v.dot w := by
    rw [hq.apply_eq_basis, hq.apply_eq_basis]
    simp only [basis, Vec3.dot, Vec3.scale, Vec3.add_def, Exact.two_eq]
    ring
  rw [hscaled, hunit, one_pow, one_mul]

end Columns

end Rotation

/-! ### Points -/

namespace Pose

theorem applyPoint_mul {a b : Pose ℝ} (ha : a.Rigid) (hb : b.Rigid) (point : Vec3 ℝ) :
    (a * b).applyPoint point = a.applyPoint (b.applyPoint point) := by
  rw [applyPoint, applyPoint, applyPoint, Rotation.apply_add, mul_def]
  show (a.rotation * b.rotation).apply point + (a.position + a.rotation.apply b.position) = _
  rw [Rotation.Proper.apply_mul ha hb]
  abel

theorem position_mul (a b : Pose ℝ) : (a * b).position = a.applyPoint b.position :=
  add_comm _ _

theorem rotation_mul (a b : Pose ℝ) : (a * b).rotation = a.rotation * b.rotation := rfl

theorem apply_rotation_mul {a b : Pose ℝ} (ha : a.Rigid) (hb : b.Rigid) (v : Vec3 ℝ) :
    (a * b).rotation.apply v = a.rotation.apply (b.rotation.apply v) :=
  Rotation.Proper.apply_mul ha hb v

theorem Same.symm {a b : Pose ℝ} (h : a.Same b) : b.Same a :=
  ⟨h.1.symm, h.2.symm⟩

end Pose

namespace Link

variable (link : Link ℝ) (angle : ℝ)

theorem transform_eq : link.transform angle =
    ⟨⟨link.length * Real.cos angle, link.length * Real.sin angle, link.offset⟩,
      .aboutZ angle * .aboutX link.twist⟩ := by
  rw [transform, Pose.mul_def, Rotation.apply_aboutZ]
  ext1
  · ext <;> simp only [Vec3.add_def] <;> ring
  · rfl

theorem apply_rotation_transform (v : Vec3 ℝ) : (link.transform angle).rotation.apply v =
    { x := v.x * Real.cos angle -
        (v.y * Real.cos link.twist - v.z * Real.sin link.twist) * Real.sin angle
      y := v.x * Real.sin angle +
        (v.y * Real.cos link.twist - v.z * Real.sin link.twist) * Real.cos angle
      z := v.y * Real.sin link.twist + v.z * Real.cos link.twist } := by
  rw [transform_eq, (Rotation.proper_aboutZ angle).apply_mul (Rotation.proper_aboutX link.twist),
    Rotation.apply_aboutX, Rotation.apply_aboutZ]

/-- The point map of a link. -/
theorem applyPoint_transform (v : Vec3 ℝ) : (link.transform angle).applyPoint v =
    { x := (link.length + v.x) * Real.cos angle -
        (v.y * Real.cos link.twist - v.z * Real.sin link.twist) * Real.sin angle
      y := (link.length + v.x) * Real.sin angle +
        (v.y * Real.cos link.twist - v.z * Real.sin link.twist) * Real.cos angle
      z := link.offset + (v.y * Real.sin link.twist + v.z * Real.cos link.twist) } := by
  rw [Pose.applyPoint, apply_rotation_transform, transform_eq]
  ext <;> simp only [Vec3.add_def] <;> ring

end Link

/-! ### Distances from an axis -/

namespace Pose

/-- The distance of a point from the Z axis of a frame. -/
noncomputable def axisDistance (frame : Pose ℝ) (point : Vec3 ℝ) : ℝ :=
  Scalar.hypot (frame.inverse.applyPoint point).x (frame.inverse.applyPoint point).y

theorem one_applyPoint (point : Vec3 ℝ) : (1 : Pose ℝ).applyPoint point = point := by
  rw [applyPoint, one_def, Rotation.one_apply, add_zero]

theorem Rigid.inverse_applyPoint {frame : Pose ℝ} (h : frame.Rigid) (point : Vec3 ℝ) :
    frame.inverse.applyPoint (frame.applyPoint point) = point := by
  rw [← applyPoint_mul h.inverse h, h.inverse_mul, one_applyPoint]

theorem Rigid.applyPoint_injective {frame : Pose ℝ} (h : frame.Rigid) :
    Function.Injective frame.applyPoint :=
  Function.LeftInverse.injective h.inverse_applyPoint

theorem Rigid.axisDistance_applyPoint {frame : Pose ℝ} (h : frame.Rigid) (point : Vec3 ℝ) :
    frame.axisDistance (frame.applyPoint point) = Scalar.hypot point.x point.y := by
  rw [axisDistance, h.inverse_applyPoint]

theorem axisDistance_one (point : Vec3 ℝ) :
    (1 : Pose ℝ).axisDistance point = Scalar.hypot point.x point.y := by
  rw [axisDistance, inverse_one, one_applyPoint]

end Pose

end Toolpath
