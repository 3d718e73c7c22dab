import Mathlib.Analysis.SpecialFunctions.Trigonometric.Angle
import Toolpath.Proofs.Exact.Scalar

/-!
Directions in the plane. A point of the plane is its distance from the origin in the direction that
`arctan2` gives (`Exact.hypot_mul_cos_arctan2`), and off the origin no other angle names that
direction (`Exact.coe_arctan2`). The difference of two directions turns one point onto the other
(`Exact.turn_onto`, `Exact.coe_turn_onto`).

An arc cosine knows an angle up to its sign. `Exact.mirrored` gives it the sign that a branch asks
for, and with the sign of its sine it is the angle itself (`Exact.coe_mirrored_arccos`).
-/

set_option autoImplicit false
set_option relaxedAutoImplicit false

namespace Toolpath.Exact

/-! ### Quarter turns -/

theorem cos_quarterTurn : Real.cos Scalar.quarterTurn = 0 := by
  rw [quarterTurn_eq, Real.cos_pi_div_two]

theorem sin_quarterTurn : Real.sin Scalar.quarterTurn = 1 := by
  rw [quarterTurn_eq, Real.sin_pi_div_two]

/-! ### Points and their directions -/

theorem hypot_nonneg (x y : ℝ) : 0 ≤ Scalar.hypot x y :=
  Real.sqrt_nonneg _

theorem hypot_comm (x y : ℝ) : Scalar.hypot x y = Scalar.hypot y x := by
  rw [hypot_eq, hypot_eq, add_comm]

theorem hypot_mul_self (x y : ℝ) : Scalar.hypot x y * Scalar.hypot x y = x ^ 2 + y ^ 2 :=
  Real.mul_self_sqrt (by positivity)

theorem hypot_eq_of_mul_self {x y r : ℝ} (hr : 0 ≤ r) (h : r * r = x ^ 2 + y ^ 2) :
    Scalar.hypot x y = r := by
  rw [hypot_eq, ← h, Real.sqrt_mul_self hr]

theorem hypot_pos_iff {x y : ℝ} : 0 < Scalar.hypot x y ↔ x ≠ 0 ∨ y ≠ 0 := by
  rw [hypot_eq, Real.sqrt_pos]
  refine ⟨fun h ↦ ?_, ?_⟩
  · by_contra hzero
    simp only [not_or, not_not] at hzero
    rw [hzero.1, hzero.2] at h
    norm_num at h
  · rintro (hx | hy) <;> positivity

theorem abs_le_hypot (x y : ℝ) : |x| ≤ Scalar.hypot x y :=
  Real.abs_le_sqrt (le_add_of_nonneg_right (sq_nonneg y))

theorem hypot_mul_cos_arctan2 (x y : ℝ) :
    Scalar.hypot x y * Real.cos (Scalar.arctan2 y x) = x := by
  have hnorm : Scalar.hypot x y = ‖(⟨x, y⟩ : ℂ)‖ :=
    (Complex.norm_eq_sqrt_sq_add_sq ⟨x, y⟩).symm
  rw [hnorm]
  exact Complex.norm_mul_cos_arg ⟨x, y⟩

theorem hypot_mul_sin_arctan2 (x y : ℝ) :
    Scalar.hypot x y * Real.sin (Scalar.arctan2 y x) = y := by
  have hnorm : Scalar.hypot x y = ‖(⟨x, y⟩ : ℂ)‖ :=
    (Complex.norm_eq_sqrt_sq_add_sq ⟨x, y⟩).symm
  rw [hnorm]
  exact Complex.norm_mul_sin_arg ⟨x, y⟩

theorem hypot_mul_direction (r angle : ℝ) :
    Scalar.hypot (r * Real.cos angle) (r * Real.sin angle) = |r| := by
  refine hypot_eq_of_mul_self (abs_nonneg r) ?_
  rw [abs_mul_abs_self]
  linear_combination -r ^ 2 * Real.sin_sq_add_cos_sq angle

/-- Turning a point keeps its distance from the origin. -/
theorem hypot_turn (u v angle : ℝ) :
    Scalar.hypot (u * Real.cos angle - v * Real.sin angle)
      (u * Real.sin angle + v * Real.cos angle) = Scalar.hypot u v := by
  refine hypot_eq_of_mul_self (hypot_nonneg u v) ?_
  rw [hypot_mul_self]
  linear_combination -(u ^ 2 + v ^ 2) * Real.sin_sq_add_cos_sq angle

/-- So does mirroring it in a line through the origin. -/
theorem hypot_mirror (u v angle : ℝ) :
    Scalar.hypot (u * Real.cos angle + v * Real.sin angle)
      (u * Real.sin angle - v * Real.cos angle) = Scalar.hypot u v := by
  refine hypot_eq_of_mul_self (hypot_nonneg u v) ?_
  rw [hypot_mul_self]
  linear_combination -(u ^ 2 + v ^ 2) * Real.sin_sq_add_cos_sq angle

theorem cos_eq_of_coe_eq {angle other : ℝ} (h : (angle : Real.Angle) = other) :
    Real.cos angle = Real.cos other := by
  rw [← Real.Angle.cos_coe, h, Real.Angle.cos_coe]

theorem sin_eq_of_coe_eq {angle other : ℝ} (h : (angle : Real.Angle) = other) :
    Real.sin angle = Real.sin other := by
  rw [← Real.Angle.sin_coe, h, Real.Angle.sin_coe]

/-- Angles in the same direction are the same up to whole turns. -/
theorem coe_eq_of_direction {r angle other : ℝ} (hr : r ≠ 0)
    (hcos : r * Real.cos angle = r * Real.cos other)
    (hsin : r * Real.sin angle = r * Real.sin other) : (angle : Real.Angle) = other :=
  Real.Angle.cos_sin_inj (mul_left_cancel₀ hr hcos) (mul_left_cancel₀ hr hsin)

/-- Off the origin the direction of a point is its only angle. -/
theorem coe_arctan2 {x y r angle : ℝ} (hr : 0 < r) (hx : x = r * Real.cos angle)
    (hy : y = r * Real.sin angle) : ((Scalar.arctan2 y x : ℝ) : Real.Angle) = angle := by
  have hlength : Scalar.hypot x y = r := by
    rw [hx, hy, hypot_mul_direction, abs_of_pos hr]
  refine coe_eq_of_direction hr.ne' ?_ ?_
  · rw [← hlength, hypot_mul_cos_arctan2, hlength, hx]
  · rw [← hlength, hypot_mul_sin_arctan2, hlength, hy]

/-! ### Turning one point onto another -/

/-- The difference of the directions turns the point `(u, v)` onto the point `(x, y)` at the same
distance from the origin. -/
theorem turn_onto {x y u v angle : ℝ} (hlength : u ^ 2 + v ^ 2 = x ^ 2 + y ^ 2)
    (hangle : angle = Scalar.arctan2 y x - Scalar.arctan2 v u) :
    u * Real.cos angle - v * Real.sin angle = x ∧
      u * Real.sin angle + v * Real.cos angle = y := by
  have hsame : Scalar.hypot u v = Scalar.hypot x y := by rw [hypot_eq, hypot_eq, hlength]
  have hu := hypot_mul_cos_arctan2 u v
  have hv := hypot_mul_sin_arctan2 u v
  have hx := hypot_mul_cos_arctan2 x y
  have hy := hypot_mul_sin_arctan2 x y
  have hsum : Scalar.arctan2 y x = Scalar.arctan2 v u + angle := by rw [hangle]; ring
  rw [hsum, ← hsame] at hx hy
  rw [Real.cos_add] at hx
  rw [Real.sin_add] at hy
  constructor
  · linear_combination hx - Real.cos angle * hu + Real.sin angle * hv
  · linear_combination hy - Real.sin angle * hu - Real.cos angle * hv

/-- Off the origin only the difference of the directions turns a point onto its image. -/
theorem coe_turn_onto {x y u v angle : ℝ} (hpos : 0 < Scalar.hypot u v)
    (hx : x = u * Real.cos angle - v * Real.sin angle)
    (hy : y = u * Real.sin angle + v * Real.cos angle) :
    ((Scalar.arctan2 y x - Scalar.arctan2 v u : ℝ) : Real.Angle) = angle := by
  have hu := hypot_mul_cos_arctan2 u v
  have hv := hypot_mul_sin_arctan2 u v
  have himage : ((Scalar.arctan2 y x : ℝ) : Real.Angle) =
      ((Scalar.arctan2 v u + angle : ℝ) : Real.Angle) := by
    refine coe_arctan2 hpos ?_ ?_
    · rw [Real.cos_add, hx]
      linear_combination -Real.cos angle * hu + Real.sin angle * hv
    · rw [Real.sin_add, hy]
      linear_combination -Real.sin angle * hu - Real.cos angle * hv
  rw [Real.Angle.coe_sub, himage, Real.Angle.coe_add, add_sub_cancel_left]

/-! ### Arc cosines and their signs -/

/-- The value, or its negative in the mirrored branch. -/
noncomputable def mirrored (flag : Bool) (value : ℝ) : ℝ :=
  if flag then -value else value

theorem mirrored_mul (flag : Bool) (factor value : ℝ) :
    mirrored flag (factor * value) = factor * mirrored flag value := by
  cases flag
  · rfl
  · exact neg_mul_eq_mul_neg factor value

theorem cos_mirrored (flag : Bool) (value : ℝ) :
    Real.cos (mirrored flag value) = Real.cos value := by
  cases flag
  · rfl
  · exact Real.cos_neg value

theorem cos_mirrored_arccos (flag : Bool) {x : ℝ} (hx : |x| ≤ 1) :
    Real.cos (mirrored flag (Real.arccos x)) = x := by
  rw [cos_mirrored, Real.cos_arccos (abs_le.mp hx).1 (abs_le.mp hx).2]

/-- The sign of the arc cosine that gives the angle is that of its sine. -/
theorem coe_mirrored_arccos {flag : Bool} {angle : ℝ}
    (h : 0 ≤ mirrored flag (Real.sin angle)) :
    ((mirrored flag (Real.arccos (Real.cos angle)) : ℝ) : Real.Angle) = angle := by
  refine Real.Angle.cos_sin_inj (cos_mirrored_arccos flag (Real.abs_cos_le_one angle)) ?_
  have hsin : Real.sin (Real.arccos (Real.cos angle)) = |Real.sin angle| := by
    rw [Real.sin_arccos, ← Real.abs_sin_eq_sqrt_one_sub_cos_sq]
  cases flag
  · exact hsin.trans (abs_of_nonneg h)
  · show Real.sin (-Real.arccos (Real.cos angle)) = Real.sin angle
    rw [Real.sin_neg, hsin, abs_of_nonpos (neg_nonneg.mp h), neg_neg]

theorem exists_mirrored_nonneg (value : ℝ) : ∃ flag, 0 ≤ mirrored flag value := by
  rcases le_total 0 value with h | h
  · exact ⟨false, h⟩
  · exact ⟨true, neg_nonneg.mpr h⟩

theorem mirrored_abs {flag : Bool} {value : ℝ} (h : 0 ≤ mirrored flag value) :
    mirrored flag |value| = value := by
  cases flag
  · exact abs_of_nonneg h
  · show -|value| = value
    rw [abs_of_nonpos (neg_nonneg.mp h), neg_neg]

/-! ### Clamping -/

theorem clamp_eq_self {x : ℝ} (hx : |x| ≤ 1) : Scalar.clamp (-1) 1 x = x := by
  obtain ⟨hlow, hhigh⟩ := abs_le.mp hx
  rw [Scalar.clamp, if_neg hlow.not_gt, if_neg hhigh.not_gt]

end Toolpath.Exact
