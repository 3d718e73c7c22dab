import Toolpath.Decimal.Written
import Toolpath.Proofs.Ranging

/-!
The real numbers and one value that is no number. It is not comparable with anything, itself
included, and whatever is computed from it is no number either, as with `NaN` in floating point.
-/

set_option autoImplicit false
set_option relaxedAutoImplicit false

namespace Toolpath.Exact

theorem ofDegrees_le {x y : ℝ} (h : x ≤ y) : Scalar.ofDegrees x ≤ Scalar.ofDegrees y :=
  mul_le_mul_of_nonneg_right h (div_nonneg Real.pi_nonneg (by norm_num))

inductive Number where
  | nan
  | real (value : ℝ)

namespace Number

noncomputable def map (f : ℝ → ℝ) : Number → Number
  | nan => nan
  | real x => real (f x)

noncomputable def map₂ (f : ℝ → ℝ → ℝ) : Number → Number → Number
  | real x, real y => real (f x y)
  | _, _ => nan

/-- Both are numbers, and they are in the relation. -/
def Related (r : ℝ → ℝ → Prop) : Number → Number → Prop
  | real x, real y => r x y
  | _, _ => False

noncomputable instance : Scalar Number where
  add := map₂ (· + ·)
  sub := map₂ (· - ·)
  mul := map₂ (· * ·)
  div := map₂ (· / ·)
  neg := map (- ·)
  zero := real 0
  one := real 1
  natCast n := real n
  ofScientific mantissa negative exponent :=
    real (OfScientific.ofScientific mantissa negative exponent)
  lt := Related (· < ·)
  le := Related (· ≤ ·)
  decLT := fun _ _ ↦ Classical.propDecidable _
  decLE := fun _ _ ↦ Classical.propDecidable _
  pi := real Real.pi
  sqrt := map Scalar.sqrt
  sin := map Scalar.sin
  cos := map Scalar.cos
  arccos := map Scalar.arccos
  arctan2 := map₂ Scalar.arctan2
  hypot := map₂ Scalar.hypot
  remainder := map₂ Scalar.remainder
  round := map Scalar.round
  ceilNat
    | nan => 0
    | real x => Scalar.ceilNat x

theorem le_iff {x y : Number} : x ≤ y ↔ ∃ a b : ℝ, x = real a ∧ y = real b ∧ a ≤ b := by
  constructor
  · intro h
    cases x with
    | nan => exact h.elim
    | real a =>
      cases y with
      | nan => exact h.elim
      | real b => exact ⟨a, b, rfl, rfl, h⟩
  · rintro ⟨a, b, rfl, rfl, h⟩
    exact h

theorem refl_iff {x : Number} : x ≤ x ↔ ∃ a : ℝ, x = real a := by
  rw [le_iff]
  constructor
  · rintro ⟨a, _, hx, _⟩
    exact ⟨a, hx⟩
  · rintro ⟨a, hx⟩
    exact ⟨a, a, hx, hx, le_rfl⟩

theorem not_nan_le (x : Number) : ¬ nan ≤ x := by
  rintro ⟨⟩

theorem not_le_nan (x : Number) : ¬ x ≤ nan := by
  intro h
  obtain ⟨_, _, _, hnan, _⟩ := le_iff.mp h
  cases hnan

instance : OrderedScalar Number where
  le_trans {x y z} hxy hyz := by
    obtain ⟨a, b, rfl, rfl, hab⟩ := le_iff.mp hxy
    obtain ⟨_, c, hb, rfl, hbc⟩ := le_iff.mp hyz
    rw [← Number.real.inj hb] at hbc
    exact le_iff.mpr ⟨a, c, rfl, rfl, hab.trans hbc⟩
  le_total {x y} hx hy := by
    obtain ⟨a, rfl⟩ := refl_iff.mp hx
    obtain ⟨b, rfl⟩ := refl_iff.mp hy
    exact le_total a b
  refl_of_le {x y} h := by
    obtain ⟨a, b, rfl, rfl, _⟩ := le_iff.mp h
    exact ⟨refl_iff.mpr ⟨a, rfl⟩, refl_iff.mpr ⟨b, rfl⟩⟩
  lt_iff {x y} := by
    cases x with
    | nan => exact ⟨False.elim, fun h ↦ not_nan_le _ h.1⟩
    | real a =>
      cases y with
      | nan => exact ⟨False.elim, fun h ↦ not_le_nan _ h.1⟩
      | real b => exact lt_iff_le_not_ge (a := a) (b := b)
  zero_le_zero := refl_iff.mpr ⟨0, rfl⟩
  le_add {x y} hx hy := by
    obtain ⟨_, a, _, rfl, _⟩ := le_iff.mp hx
    obtain ⟨zero, b, hzero, rfl, hb⟩ := le_iff.mp hy
    rw [← Number.real.inj hzero] at hb
    exact le_add_of_nonneg_right hb

theorem exists_tolerance (joint : Joint Number) : ∃ t : ℝ, 0 ≤ t ∧ joint.tolerance = real t := by
  cases joint with
  | mk length offset low high maxSpeed kind =>
    cases kind with
    | revolute => exact ⟨1.0e-9, by norm_num, rfl⟩
    | prismatic => exact ⟨1.0e-6, by norm_num, rfl⟩

instance : TolerantScalar Number where
  sub_tolerance_le {x} joint hx := by
    obtain ⟨a, rfl⟩ := refl_iff.mp hx
    obtain ⟨t, ht, heq⟩ := exists_tolerance joint
    rw [heq]
    exact sub_le_self a ht
  le_add_tolerance {x} joint hx := by
    obtain ⟨a, rfl⟩ := refl_iff.mp hx
    obtain ⟨t, ht, heq⟩ := exists_tolerance joint
    rw [heq]
    exact le_add_of_nonneg_right ht

/-- Written numbers stand for themselves; there are no infinite ones. Texts of numbers are left
empty. -/
noncomputable instance : DecimalText Number where
  fixed _ _ := ""
  shortest _ := ""
  ofWritten
    | .finite negative digits exponent =>
      real ((if negative then -(digits : ℝ) else digits) * (10 : ℝ) ^ exponent)
    | _ => nan

end Number

end Toolpath.Exact
