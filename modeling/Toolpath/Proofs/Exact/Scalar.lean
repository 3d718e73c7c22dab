import Mathlib.Analysis.Real.Pi.Bounds
import Mathlib.Analysis.SpecialFunctions.Complex.Arg
import Mathlib.Analysis.SpecialFunctions.Trigonometric.Inverse
import Toolpath.Scalar

/-!
The real numbers as scalars. Over them the choices of `larger` and `abs` are those of a linear
order, every value is finite, and roundings give whole numbers.
-/

set_option autoImplicit false
set_option relaxedAutoImplicit false

namespace Toolpath

namespace Exact

/-- The whole number next to a value on the side of zero. -/
noncomputable def truncate (x : ℝ) : ℤ :=
  if 0 ≤ x then ⌊x⌋ else ⌈x⌉

/-- The whole number nearest to a value, a half going away from zero. -/
noncomputable def roundHalfAway (x : ℝ) : ℤ :=
  if 0 ≤ x then ⌊x + 1 / 2⌋ else ⌈x - 1 / 2⌉

end Exact

noncomputable instance : Scalar ℝ where
  decLT := inferInstance
  decLE := inferInstance
  pi := Real.pi
  sqrt := Real.sqrt
  sin := Real.sin
  cos := Real.cos
  arccos := Real.arccos
  arctan2 y x := Complex.arg ⟨x, y⟩
  hypot x y := Real.sqrt (x ^ 2 + y ^ 2)
  remainder x y := x - y * Exact.truncate (x / y)
  round x := Exact.roundHalfAway x
  ceilNat x := ⌈x⌉₊

namespace Exact

theorem isFinite_eq_true (x : ℝ) : Scalar.isFinite x = true := by
  rw [Scalar.isFinite, decide_eq_true_iff, sub_self]

theorem two_eq : (Scalar.two : ℝ) = 2 := one_add_one_eq_two

theorem fullTurn_eq : (Scalar.fullTurn : ℝ) = 2 * Real.pi := by
  rw [Scalar.fullTurn, two_eq]
  rfl

theorem quarterTurn_eq : (Scalar.quarterTurn : ℝ) = Real.pi / 2 := by
  rw [Scalar.quarterTurn, two_eq]
  rfl

theorem hypot_eq (x y : ℝ) : Scalar.hypot x y = Real.sqrt (x ^ 2 + y ^ 2) := rfl

theorem arccos_eq (x : ℝ) : Scalar.arccos x = Real.arccos x := rfl

theorem arctan2_zero_of_nonneg {x : ℝ} (h : 0 ≤ x) : Scalar.arctan2 0 x = 0 :=
  Complex.arg_ofReal_of_nonneg h

theorem arctan2_zero_of_neg {x : ℝ} (h : x < 0) : Scalar.arctan2 0 x = Real.pi :=
  Complex.arg_ofReal_of_neg h

theorem arctan2_one_zero : Scalar.arctan2 (1 : ℝ) 0 = Real.pi / 2 := Complex.arg_I

theorem abs_sub_truncate_lt (x : ℝ) : |x - truncate x| < 1 := by
  rw [truncate, abs_lt]
  by_cases hnonneg : 0 ≤ x
  · rw [if_pos hnonneg]
    constructor <;> linarith [Int.floor_le x, Int.lt_floor_add_one x]
  · rw [if_neg hnonneg]
    constructor <;> linarith [Int.ceil_lt_add_one x, Int.le_ceil x]

theorem larger_eq_max (x y : ℝ) : Scalar.larger x y = max x y := by
  rw [Scalar.larger]
  by_cases hlt : x < y
  · rw [if_pos hlt, max_eq_right hlt.le]
  · rw [if_neg hlt, if_pos le_rfl, max_eq_left (not_lt.mp hlt)]

theorem abs_eq (x : ℝ) : Scalar.abs x = |x| := by
  rw [Scalar.abs]
  by_cases hneg : x < 0
  · rw [if_pos hneg, abs_of_neg hneg]
  · rw [if_neg hneg, abs_of_nonneg (not_lt.mp hneg)]

/-! ### The largest value of a list -/

theorem foldl_larger_le_iff {values : List ℝ} {bound : ℝ} :
    ∀ {start : ℝ}, values.foldl Scalar.larger start ≤ bound ↔
      start ≤ bound ∧ ∀ value ∈ values, value ≤ bound := by
  induction values with
  | nil => simp
  | cons value rest ih =>
    intro start
    rw [List.foldl_cons, ih, larger_eq_max, max_le_iff, List.forall_mem_cons, and_assoc]

theorem maximum_le_iff {values : List ℝ} {bound : ℝ} :
    Scalar.maximum values ≤ bound ↔ 0 ≤ bound ∧ ∀ value ∈ values, value ≤ bound :=
  foldl_larger_le_iff

theorem maximum_nonneg (values : List ℝ) : 0 ≤ Scalar.maximum values :=
  (maximum_le_iff.mp le_rfl).1

theorem le_maximum {values : List ℝ} {value : ℝ} (h : value ∈ values) :
    value ≤ Scalar.maximum values :=
  (maximum_le_iff.mp le_rfl).2 value h

theorem foldl_larger_mem (values : List ℝ) :
    ∀ start : ℝ, values.foldl Scalar.larger start ∈ start :: values := by
  induction values with
  | nil => intro start; exact List.mem_singleton.mpr rfl
  | cons value rest ih =>
    intro start
    rw [List.foldl_cons]
    rcases List.mem_cons.mp (ih (Scalar.larger start value)) with heq | hmem
    · rw [heq, larger_eq_max]
      rcases max_choice start value with hmax | hmax <;> simp [hmax]
    · exact List.mem_cons_of_mem _ (List.mem_cons_of_mem _ hmem)

/-- The largest of the values, zero counting as one of them. -/
theorem isGreatest_maximum (values : List ℝ) :
    IsGreatest {value | value ∈ (0 : ℝ) :: values} (Scalar.maximum values) := by
  refine ⟨foldl_larger_mem values 0, fun value hvalue ↦ ?_⟩
  rcases List.mem_cons.mp hvalue with rfl | hmem
  · exact maximum_nonneg values
  · exact le_maximum hmem

end Exact

end Toolpath
