import Mathlib.LinearAlgebra.UnitaryGroup
import Toolpath.Proofs.Exact.Columns

/-!
Rotations by their matrices. A `Basis` is the list of columns of a matrix, and it `IsRotation` when
the matrix is orthogonal with determinant one. The last column and the last row are then unit vectors
(`Basis.IsRotation.sq_add_sq_column`, `Basis.IsRotation.sq_add_sq_row`), and every column is the cross
product of the other two, for the inverse of such a matrix is its transpose and its adjugate
(`Basis.IsRotation.cross`).
-/

set_option autoImplicit false
set_option relaxedAutoImplicit false

namespace Toolpath

/-- The rotation about Z as a matrix. -/
noncomputable def turnZ (angle : ℝ) : Matrix (Fin 3) (Fin 3) ℝ :=
  !![Real.cos angle, -Real.sin angle, 0; Real.sin angle, Real.cos angle, 0; 0, 0, 1]

theorem turnZ_zero : turnZ 0 = 1 := by
  rw [turnZ, Real.cos_zero, Real.sin_zero, neg_zero]
  ext row column
  fin_cases row <;> fin_cases column <;> rfl

/-- The rotation about Y as a matrix. -/
noncomputable def turnY (angle : ℝ) : Matrix (Fin 3) (Fin 3) ℝ :=
  !![Real.cos angle, 0, Real.sin angle; 0, 1, 0; -Real.sin angle, 0, Real.cos angle]

namespace Basis

/-- The matrix with the images of the axes as its columns. -/
def matrix (m : Basis ℝ) : Matrix (Fin 3) (Fin 3) ℝ :=
  !![m.x.x, m.y.x, m.z.x; m.x.y, m.y.y, m.z.y; m.x.z, m.y.z, m.z.z]

/-- The columns of a rotation matrix. -/
def IsRotation (m : Basis ℝ) : Prop :=
  m.matrix ∈ Matrix.specialOrthogonalGroup (Fin 3) ℝ

namespace IsRotation

variable {m : Basis ℝ}

theorem mul_transpose (hm : m.IsRotation) : m.matrix * m.matrix.transpose = 1 :=
  (Matrix.mem_orthogonalGroup_iff (Fin 3) ℝ).mp hm.1

theorem transpose_mul (hm : m.IsRotation) : m.matrix.transpose * m.matrix = 1 :=
  (Matrix.mem_orthogonalGroup_iff' (Fin 3) ℝ).mp hm.1

theorem det_eq_one (hm : m.IsRotation) : m.matrix.det = 1 :=
  (Matrix.mem_specialOrthogonalGroup_iff.mp hm).2

theorem sq_add_sq_column (hm : m.IsRotation) : m.z.x ^ 2 + m.z.y ^ 2 = 1 - m.z.z ^ 2 := by
  have hunit : (m.matrix.transpose * m.matrix) 2 2 = 1 := by rw [hm.transpose_mul]; rfl
  have hsum : m.z.x * m.z.x + m.z.y * m.z.y + m.z.z * m.z.z = 1 := by
    rwa [Matrix.mul_apply, Fin.sum_univ_three] at hunit
  linear_combination hsum

theorem sq_add_sq_row (hm : m.IsRotation) : m.x.z ^ 2 + m.y.z ^ 2 = 1 - m.z.z ^ 2 := by
  have hunit : (m.matrix * m.matrix.transpose) 2 2 = 1 := by rw [hm.mul_transpose]; rfl
  have hsum : m.x.z * m.x.z + m.y.z * m.y.z + m.z.z * m.z.z = 1 := by
    rwa [Matrix.mul_apply, Fin.sum_univ_three] at hunit
  linear_combination hsum

theorem adjugate_eq (hm : m.IsRotation) : m.matrix.adjugate = m.matrix.transpose := by
  calc m.matrix.adjugate = m.matrix.adjugate * (m.matrix * m.matrix.transpose) := by
        rw [hm.mul_transpose, mul_one]
    _ = m.matrix.transpose := by
        rw [← mul_assoc, Matrix.adjugate_mul, hm.det_eq_one, one_smul, one_mul]

/-- The columns are a right-handed system. -/
theorem cross (hm : m.IsRotation) : m.y.cross m.z = m.x ∧ m.z.cross m.x = m.y := by
  have hentry (row column : Fin 3) :
      m.matrix.adjugate row column = m.matrix.transpose row column := by rw [hm.adjugate_eq]
  rw [matrix, Matrix.adjugate_fin_three_of] at hentry
  have hxx : m.y.y * m.z.z - m.z.y * m.y.z = m.x.x := hentry 0 0
  have hxy : -(m.y.x * m.z.z) + m.z.x * m.y.z = m.x.y := hentry 0 1
  have hxz : m.y.x * m.z.y - m.z.x * m.y.y = m.x.z := hentry 0 2
  have hyx : -(m.x.y * m.z.z) + m.z.y * m.x.z = m.y.x := hentry 1 0
  have hyy : m.x.x * m.z.z - m.z.x * m.x.z = m.y.y := hentry 1 1
  have hyz : -(m.x.x * m.z.y) + m.z.x * m.x.y = m.y.z := hentry 1 2
  constructor
  · ext <;> simp only [Vec3.cross]
    · linear_combination hxx
    · linear_combination hxy
    · linear_combination hxz
  · ext <;> simp only [Vec3.cross]
    · linear_combination hyx
    · linear_combination hyy
    · linear_combination hyz

/-- The first column from the last column and the last row. -/
theorem first_column (hm : m.IsRotation) :
    (1 - m.z.z ^ 2) * m.x.x = -(m.z.x * m.x.z * m.z.z) - m.y.z * m.z.y ∧
      (1 - m.z.z ^ 2) * m.x.y = m.y.z * m.z.x - m.z.y * m.x.z * m.z.z := by
  have hx := hm.cross.1
  have hy := hm.cross.2
  have hxx := congrArg Vec3.x hx
  have hxy := congrArg Vec3.y hx
  have hyx := congrArg Vec3.x hy
  have hyy := congrArg Vec3.y hy
  simp only [Vec3.cross] at hxx hxy hyx hyy
  constructor
  · linear_combination -hxx - m.z.z * hyy
  · linear_combination -hxy + m.z.z * hyx

/-- Two rotations that agree in the last column and the last row are the same, unless the last axis
stays upright. -/
theorem eq_of_bent {n : Basis ℝ} (hm : m.IsRotation) (hn : n.IsRotation) (hcolumn : m.z = n.z)
    (hx : m.x.z = n.x.z) (hy : m.y.z = n.y.z) (hbent : 1 - n.z.z ^ 2 ≠ 0) : m = n := by
  have hmx := hm.first_column.1
  have hmy := hm.first_column.2
  rw [hcolumn, hx, hy] at hmx hmy
  have hfirst : m.x = n.x :=
    Vec3.ext (mul_left_cancel₀ hbent (hmx.trans hn.first_column.1.symm))
      (mul_left_cancel₀ hbent (hmy.trans hn.first_column.2.symm)) hx
  have hsecond : m.y = n.y := by
    rw [← hm.cross.2, ← hn.cross.2, hfirst, hcolumn]
  calc m = ⟨m.x, m.y, m.z⟩ := rfl
    _ = n := by rw [hfirst, hsecond, hcolumn]

end IsRotation

end Basis

/-- A basis as seen from another one. -/
theorem Basis.matrix_relativeTo (m n : Basis ℝ) :
    (n.relativeTo m).matrix = m.matrix.transpose * n.matrix := by
  ext row column
  rw [Matrix.mul_apply, Fin.sum_univ_three]
  fin_cases row <;> fin_cases column <;> rfl

theorem Rotation.matrix_basis_one : (1 : Rotation ℝ).basis.matrix = 1 := by
  rw [Rotation.proper_one.basis_eq, Rotation.one_apply, Rotation.one_apply, Rotation.one_apply]
  ext row column
  fin_cases row <;> fin_cases column <;> rfl

/-- The columns of a proper rotation are those of a rotation matrix. -/
theorem Rotation.Proper.isRotation {q : Rotation ℝ} (hq : q.Proper) : q.basis.IsRotation := by
  have hunit : q.i * q.i + q.j * q.j + q.k * q.k + q.w * q.w = 1 := hq
  refine Matrix.mem_specialOrthogonalGroup_iff.mpr
    ⟨(Matrix.mem_orthogonalGroup_iff' (Fin 3) ℝ).mpr ?_, ?_⟩
  · show q.basis.matrix.transpose * q.basis.matrix = 1
    rw [← Basis.matrix_relativeTo, Rotation.basis_relativeTo, hq.inverse_mul,
      Rotation.matrix_basis_one]
  · rw [Matrix.det_fin_three]
    simp only [Basis.matrix, Rotation.basis, Exact.two_eq, Matrix.of_apply, Matrix.cons_val]
    linear_combination ((q.i * q.i + q.j * q.j + q.k * q.k + q.w * q.w) ^ 2 +
      (q.i * q.i + q.j * q.j + q.k * q.k + q.w * q.w) + 1) * hunit

end Toolpath
