import Mathlib.Algebra.Ring.Basic
import Mathlib.Tactic.Linarith
import Mathlib.Tactic.LinearCombination
import Toolpath.Proofs.Exact.Scalar
import Toolpath.Geometry.Pose

/-!
Rigid motions over the real numbers. A rotation is `Proper` when its quaternion has length one, and
a pose is `Rigid` when its rotation is proper. Rigid poses compose and invert as motions do
(`Pose.mul_assoc`, `Pose.mul_inverse_mul`, `Pose.mul_mul_inverse_mul`).

A quaternion and its negative are the same rotation. `Rotation.Same` compares rotations by what they
do (`Rotation.Proper.same_iff_apply`), `Pose.Same` compares poses as motions, and the product
respects both.
-/

set_option autoImplicit false
set_option relaxedAutoImplicit false

namespace Toolpath

attribute [ext] Vec3 Rotation Pose

/-! ### Vectors -/

namespace Vec3

theorem add_def (a b : Vec3 ℝ) : a + b = ⟨a.x + b.x, a.y + b.y, a.z + b.z⟩ := rfl

theorem sub_def (a b : Vec3 ℝ) : a - b = ⟨a.x - b.x, a.y - b.y, a.z - b.z⟩ := rfl

theorem neg_def (a : Vec3 ℝ) : -a = ⟨-a.x, -a.y, -a.z⟩ := rfl

theorem zero_def : (0 : Vec3 ℝ) = ⟨0, 0, 0⟩ := rfl

noncomputable instance : AddCommGroup (Vec3 ℝ) where
  add_assoc a b c := by ext <;> simp only [add_def, add_assoc]
  zero_add a := by ext <;> simp only [add_def, zero_def, zero_add]
  add_zero a := by ext <;> simp only [add_def, zero_def, add_zero]
  neg_add_cancel a := by ext <;> simp only [add_def, neg_def, zero_def, neg_add_cancel]
  add_comm a b := by ext <;> simp only [add_def, add_comm]
  sub_eq_add_neg a b := by ext <;> simp only [sub_def, add_def, neg_def, sub_eq_add_neg]
  nsmul := nsmulRec
  zsmul := zsmulRec

end Vec3

/-! ### Rotations -/

namespace Rotation

theorem mul_def (p q : Rotation ℝ) : p * q =
    { w := p.w * q.w - p.i * q.i - p.j * q.j - p.k * q.k
      i := p.w * q.i + p.i * q.w + p.j * q.k - p.k * q.j
      j := p.w * q.j - p.i * q.k + p.j * q.w + p.k * q.i
      k := p.w * q.k + p.i * q.j - p.j * q.i + p.k * q.w } := rfl

theorem one_def : (1 : Rotation ℝ) = ⟨1, 0, 0, 0⟩ := rfl

theorem neg_def (q : Rotation ℝ) : -q = ⟨-q.w, -q.i, -q.j, -q.k⟩ := rfl

noncomputable instance : Monoid (Rotation ℝ) where
  mul_assoc p q r := by ext <;> simp only [mul_def] <;> ring
  one_mul q := by ext <;> simp only [mul_def, one_def] <;> ring
  mul_one q := by ext <;> simp only [mul_def, one_def] <;> ring

noncomputable instance : HasDistribNeg (Rotation ℝ) where
  neg_neg q := by ext <;> simp only [neg_def, neg_neg]
  neg_mul p q := by ext <;> simp only [mul_def, neg_def] <;> ring
  mul_neg p q := by ext <;> simp only [mul_def, neg_def] <;> ring

/-- The quaternion has length one, as that of a rotation has. -/
def Proper (q : Rotation ℝ) : Prop :=
  q.dot q = 1

theorem dot_mul (p q : Rotation ℝ) : (p * q).dot (p * q) = p.dot p * q.dot q := by
  simp only [dot, mul_def]
  ring

theorem proper_one : Proper 1 := by
  simp [Proper, dot, one_def]

theorem Proper.mul {p q : Rotation ℝ} (hp : p.Proper) (hq : q.Proper) : (p * q).Proper := by
  unfold Proper at hp hq ⊢
  rw [dot_mul, hp, hq, one_mul]

theorem Proper.inverse {q : Rotation ℝ} (hq : q.Proper) : q.inverse.Proper := by
  unfold Proper at hq ⊢
  simp only [dot, Rotation.inverse] at hq ⊢
  linear_combination hq

theorem Proper.inverse_mul {q : Rotation ℝ} (hq : q.Proper) : q.inverse * q = 1 := by
  simp only [Proper, dot] at hq
  ext <;> simp only [mul_def, one_def, Rotation.inverse]
  · linear_combination hq
  all_goals ring

theorem Proper.mul_inverse {q : Rotation ℝ} (hq : q.Proper) : q * q.inverse = 1 := by
  simp only [Proper, dot] at hq
  ext <;> simp only [mul_def, one_def, Rotation.inverse]
  · linear_combination hq
  all_goals ring

/-! ### Rotations about an axis -/

theorem aboutX_eq (angle : ℝ) :
    aboutX angle = ⟨Real.cos (angle / 2), Real.sin (angle / 2), 0, 0⟩ := by
  rw [← Exact.two_eq]
  ext
  · rfl
  · exact one_mul _
  · exact zero_mul _
  · exact zero_mul _

theorem aboutZ_eq (angle : ℝ) :
    aboutZ angle = ⟨Real.cos (angle / 2), 0, 0, Real.sin (angle / 2)⟩ := by
  rw [← Exact.two_eq]
  ext
  · rfl
  · exact zero_mul _
  · exact zero_mul _
  · exact one_mul _

theorem proper_aboutX (angle : ℝ) : (aboutX angle).Proper := by
  rw [Proper, aboutX_eq, dot]
  linear_combination Real.sin_sq_add_cos_sq (angle / 2)

theorem proper_aboutZ (angle : ℝ) : (aboutZ angle).Proper := by
  rw [Proper, aboutZ_eq, dot]
  linear_combination Real.sin_sq_add_cos_sq (angle / 2)

theorem aboutX_zero : aboutX (0 : ℝ) = 1 := by
  rw [aboutX_eq, zero_div, Real.cos_zero, Real.sin_zero, one_def]

theorem aboutZ_zero : aboutZ (0 : ℝ) = 1 := by
  rw [aboutZ_eq, zero_div, Real.cos_zero, Real.sin_zero, one_def]

theorem aboutX_mul (a b : ℝ) : aboutX a * aboutX b = aboutX (a + b) := by
  rw [aboutX_eq, aboutX_eq, aboutX_eq, mul_def, add_div, Real.cos_add, Real.sin_add]
  ext <;> ring

/-- A half turn about Z turns the X axis round. -/
theorem aboutZ_pi_mul_aboutX (angle : ℝ) :
    aboutZ Real.pi * aboutX angle = aboutX (-angle) * aboutZ Real.pi := by
  rw [aboutZ_eq, Real.cos_pi_div_two, Real.sin_pi_div_two, aboutX_eq, aboutX_eq, neg_div,
    Real.cos_neg, Real.sin_neg, mul_def, mul_def]
  ext <;> ring

/-! ### Rotated vectors -/

theorem apply_def (q : Rotation ℝ) (v : Vec3 ℝ) : q.apply v =
    { x := 2 * (q.j * v.z - q.k * v.y) * q.w +
        (q.j * (2 * (q.i * v.y - q.j * v.x)) - q.k * (2 * (q.k * v.x - q.i * v.z))) + v.x
      y := 2 * (q.k * v.x - q.i * v.z) * q.w +
        (q.k * (2 * (q.j * v.z - q.k * v.y)) - q.i * (2 * (q.i * v.y - q.j * v.x))) + v.y
      z := 2 * (q.i * v.y - q.j * v.x) * q.w +
        (q.i * (2 * (q.k * v.x - q.i * v.z)) - q.j * (2 * (q.j * v.z - q.k * v.y))) + v.z } := by
  ext <;> simp only [apply, axis, Vec3.cross, Vec3.scale, Vec3.add_def, Exact.two_eq] <;> ring

theorem apply_add (q : Rotation ℝ) (v w : Vec3 ℝ) : q.apply (v + w) = q.apply v + q.apply w := by
  ext <;> simp only [apply_def, Vec3.add_def] <;> ring

theorem apply_zero (q : Rotation ℝ) : q.apply 0 = 0 := by
  ext <;> simp only [apply_def, Vec3.zero_def] <;> ring

theorem one_apply (v : Vec3 ℝ) : (1 : Rotation ℝ).apply v = v := by
  ext <;> simp only [apply_def, one_def] <;> ring

theorem aboutX_apply (angle length : ℝ) :
    (aboutX angle).apply ⟨length, 0, 0⟩ = ⟨length, 0, 0⟩ := by
  rw [aboutX_eq, apply_def]
  ext <;> ring

theorem neg_apply (q : Rotation ℝ) (v : Vec3 ℝ) : (-q).apply v = q.apply v := by
  ext <;> simp only [apply_def, neg_def] <;> ring

/-- A rotation applies its matrix. -/
theorem Proper.apply_eq_basis {q : Rotation ℝ} (hq : q.Proper) (v : Vec3 ℝ) :
    q.apply v = q.basis.x.scale v.x + q.basis.y.scale v.y + q.basis.z.scale v.z := by
  simp only [Proper, dot] at hq
  ext <;> simp only [apply_def, basis, Vec3.scale, Vec3.add_def, Exact.two_eq]
  · linear_combination -v.x * hq
  · linear_combination -v.y * hq
  · linear_combination -v.z * hq

theorem Proper.apply_mul {p q : Rotation ℝ} (hp : p.Proper) (hq : q.Proper) (v : Vec3 ℝ) :
    (p * q).apply v = p.apply (q.apply v) := by
  rw [(hp.mul hq).apply_eq_basis, hp.apply_eq_basis, hq.apply_eq_basis]
  ext <;> simp only [basis, mul_def, Vec3.scale, Vec3.add_def, Exact.two_eq] <;> ring

/-- The same rotation, whichever of its two quaternions stands for it. -/
def Same (p q : Rotation ℝ) : Prop :=
  p = q ∨ p = -q

namespace Same

variable {p q r : Rotation ℝ}

theorem refl (q : Rotation ℝ) : q.Same q := Or.inl rfl

theorem symm (h : p.Same q) : q.Same p := by
  rcases h with rfl | rfl
  · exact refl p
  · exact Or.inr (neg_neg q).symm

theorem trans (h : p.Same q) (h' : q.Same r) : p.Same r := by
  rcases h with rfl | rfl
  · exact h'
  · rcases h' with rfl | rfl
    · exact Or.inr rfl
    · exact Or.inl (neg_neg r)

theorem mul {p' q' : Rotation ℝ} (h : p.Same q) (h' : p'.Same q') : (p * p').Same (q * q') := by
  rcases h with rfl | rfl <;> rcases h' with rfl | rfl
  · exact refl _
  · exact Or.inr (mul_neg p q')
  · exact Or.inr (neg_mul q p')
  · exact Or.inl (neg_mul_neg q q')

theorem apply (h : p.Same q) (v : Vec3 ℝ) : p.apply v = q.apply v := by
  rcases h with rfl | rfl
  · rfl
  · exact neg_apply q v

theorem basis (h : p.Same q) : p.basis = q.basis := by
  rcases h with rfl | rfl
  · rfl
  · simp only [Rotation.basis, neg_def, neg_mul_neg]

end Same

theorem Proper.same_one {q : Rotation ℝ} (hq : q.Proper) (h : ∀ v, q.apply v = v) : q.Same 1 := by
  have hx := congrArg Vec3.x (h Vec3.xAxis)
  have hy := congrArg Vec3.y (h Vec3.yAxis)
  simp only [apply_def, Vec3.xAxis, Vec3.yAxis] at hx hy
  have hjk : q.j ^ 2 + q.k ^ 2 = 0 := by linear_combination -hx / 2
  have hik : q.i ^ 2 + q.k ^ 2 = 0 := by linear_combination -hy / 2
  have hi : q.i = 0 := pow_eq_zero_iff two_ne_zero |>.mp (by nlinarith [sq_nonneg q.k])
  have hj : q.j = 0 := pow_eq_zero_iff two_ne_zero |>.mp (by nlinarith [sq_nonneg q.k])
  have hk : q.k = 0 := pow_eq_zero_iff two_ne_zero |>.mp (by nlinarith [sq_nonneg q.i])
  have hw : q.w * q.w = 1 := by simpa [Proper, dot, hi, hj, hk] using hq
  rcases mul_self_eq_one_iff.mp hw with hone | hneg
  · left
    ext <;> simp [one_def, hone, hi, hj, hk]
  · right
    ext <;> simp [one_def, neg_def, hneg, hi, hj, hk]

/-- Rotations are the same when they rotate every vector alike. -/
theorem Proper.same_iff_apply {p q : Rotation ℝ} (hp : p.Proper) (hq : q.Proper) :
    p.Same q ↔ ∀ v, p.apply v = q.apply v := by
  refine ⟨Same.apply, fun h ↦ ?_⟩
  have hone : (p.inverse * q).Same 1 := by
    refine (hp.inverse.mul hq).same_one fun v ↦ ?_
    rw [hp.inverse.apply_mul hq, ← h v, ← hp.inverse.apply_mul hp, hp.inverse_mul, one_apply]
  have hback : (p * (p.inverse * q)).Same (p * 1) := (Same.refl p).mul hone
  rw [← mul_assoc, hp.mul_inverse, one_mul, mul_one] at hback
  exact hback.symm

end Rotation

/-! ### Poses -/

namespace Pose

theorem mul_def (a b : Pose ℝ) :
    a * b = ⟨a.position + a.rotation.apply b.position, a.rotation * b.rotation⟩ := rfl

theorem one_def : (1 : Pose ℝ) = ⟨0, 1⟩ := rfl

/-- The pose is a rigid motion. -/
def Rigid (a : Pose ℝ) : Prop :=
  a.rotation.Proper

theorem rigid_one : Rigid 1 := Rotation.proper_one

theorem rigid_translation (x y z : ℝ) : (translation x y z).Rigid := Rotation.proper_one

theorem Rigid.mul {a b : Pose ℝ} (ha : a.Rigid) (hb : b.Rigid) : (a * b).Rigid :=
  Rotation.Proper.mul ha hb

theorem Rigid.inverse {a : Pose ℝ} (ha : a.Rigid) : a.inverse.Rigid :=
  Rotation.Proper.inverse ha

theorem inverse_one : (1 : Pose ℝ).inverse = 1 := by
  rw [one_def, inverse]
  ext1
  · show (Rotation.inverse 1).apply (-0) = 0
    rw [neg_zero, Rotation.apply_zero]
  · show Rotation.inverse 1 = 1
    ext <;> simp [Rotation.inverse, Rotation.one_def]

protected theorem one_mul (a : Pose ℝ) : 1 * a = a := by
  rw [mul_def]
  ext1
  · exact (zero_add _).trans (Rotation.one_apply a.position)
  · exact one_mul a.rotation

protected theorem mul_one (a : Pose ℝ) : a * 1 = a := by
  rw [mul_def, one_def, Rotation.apply_zero, add_zero, mul_one]

protected theorem mul_assoc {a b : Pose ℝ} (ha : a.Rigid) (hb : b.Rigid) (c : Pose ℝ) :
    a * b * c = a * (b * c) := by
  simp only [mul_def, ha.apply_mul hb, Rotation.apply_add, add_assoc, mul_assoc]

theorem Rigid.inverse_mul {a : Pose ℝ} (ha : a.Rigid) : a.inverse * a = 1 := by
  rw [mul_def, one_def]
  ext1
  · show a.rotation.inverse.apply (-a.position) + a.rotation.inverse.apply a.position = 0
    rw [← Rotation.apply_add, neg_add_cancel, Rotation.apply_zero]
  · exact Rotation.Proper.inverse_mul ha

theorem Rigid.mul_inverse {a : Pose ℝ} (ha : a.Rigid) : a * a.inverse = 1 := by
  rw [mul_def, one_def]
  ext1
  · show a.position + a.rotation.apply (a.rotation.inverse.apply (-a.position)) = 0
    rw [← ha.apply_mul (Rotation.Proper.inverse ha), Rotation.Proper.mul_inverse ha,
      Rotation.one_apply, add_neg_cancel]
  · exact Rotation.Proper.mul_inverse ha

theorem mul_inverse_mul {a : Pose ℝ} (ha : a.Rigid) (b : Pose ℝ) : a * (a.inverse * b) = b := by
  rw [← Pose.mul_assoc ha ha.inverse, ha.mul_inverse, Pose.one_mul]

theorem mul_mul_inverse_mul {a b : Pose ℝ} (ha : a.Rigid) (hb : b.Rigid) :
    a * b.inverse * b = a := by
  rw [Pose.mul_assoc ha hb.inverse, hb.inverse_mul, Pose.mul_one]

/-- The same motion, whichever quaternion stands for its rotation. -/
def Same (a b : Pose ℝ) : Prop :=
  a.position = b.position ∧ a.rotation.Same b.rotation

namespace Same

variable {a b c : Pose ℝ}

theorem refl (a : Pose ℝ) : a.Same a := ⟨rfl, Rotation.Same.refl a.rotation⟩

theorem trans (h : a.Same b) (h' : b.Same c) : a.Same c := ⟨h.1.trans h'.1, h.2.trans h'.2⟩

theorem mul {a' b' : Pose ℝ} (h : a.Same b) (h' : a'.Same b') : (a * a').Same (b * b') := by
  refine ⟨?_, h.2.mul h'.2⟩
  rw [mul_def, mul_def, h.1, h'.1, h.2.apply]

end Same

end Pose

end Toolpath
