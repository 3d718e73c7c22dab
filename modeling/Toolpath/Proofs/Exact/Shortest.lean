import Toolpath.Proofs.Exact.Nearest
import Toolpath.Proofs.Exact.Positions

/-!
The shortest way to a flange pose. Branches are compared by their shortest angles, while an axis
then turns by the difference of two axis values. The two agree: no value of an angle is nearer to
the previous one than the angles tell (`Angle.squaredDistance_le`), and the continuation that
`follow` picks is as near (`Angle.squaredDistance_of_close`), at most half a turn away. Hence the
closest branch is the shortest way among all axis values that lead to any branch
(`Solver.closest_isShortest`), with the first of equally near branches.
-/

set_option autoImplicit false
set_option relaxedAutoImplicit false

namespace Toolpath

/-! ### One axis -/

theorem Exact.abs_sub_roundHalfAway_le (x : ℝ) : |x - roundHalfAway x| ≤ 1 / 2 := by
  unfold roundHalfAway
  rw [abs_le]
  split_ifs
  · have hlow := Int.floor_le (x + 1 / 2)
    have hhigh := Int.lt_floor_add_one (x + 1 / 2)
    constructor <;> linarith
  · have hlow := Int.le_ceil (x - 1 / 2)
    have hhigh := Int.ceil_lt_add_one (x - 1 / 2)
    constructor <;> linarith

namespace Angle

theorem normalize_congr {angle other : ℝ} (h : (angle : Real.Angle) = other) :
    normalize angle = normalize other := by
  have hreal : ∀ a : ℝ, normalize a = (a : Real.Angle).toReal := fun a ↦ by
    rw [← coe_normalize, Real.Angle.toReal_coe_eq_self_iff_mem_Ioc.mpr (normalize_mem_Ioc a)]
  rw [hreal, hreal, h]

/-- Within half a turn an angle is reduced to itself, but for half a turn backwards, which is half
a turn forwards. -/
theorem abs_normalize_of_close {angle : ℝ} (h : |angle| ≤ Real.pi) :
    |normalize angle| = |angle| := by
  have hself : ∀ a : ℝ, a ∈ Set.Ioc (-Real.pi) Real.pi → normalize a = a := fun a ha ↦ by
    have hreal := Real.Angle.toReal_coe_eq_self_iff_mem_Ioc.mpr (normalize_mem_Ioc a)
    rw [← hreal, coe_normalize, Real.Angle.toReal_coe_eq_self_iff_mem_Ioc.mpr ha]
  obtain ⟨hlow, hhigh⟩ := abs_le.mp h
  rcases hlow.eq_or_lt with hback | hlow
  · have hturn : ((angle : ℝ) : Real.Angle) = Real.pi := by
      rw [← hback, Real.Angle.coe_neg, Real.Angle.neg_coe_pi]
    have hpi : Real.pi ∈ Set.Ioc (-Real.pi) Real.pi :=
      ⟨neg_lt_self Real.pi_pos, le_rfl⟩
    rw [normalize_congr hturn, hself _ hpi, ← hback, abs_neg]
  · rw [hself angle ⟨hlow, hhigh⟩]

theorem abs_normalize_le (angle : ℝ) : |normalize angle| ≤ |angle| := by
  by_cases hclose : |angle| ≤ Real.pi
  · exact (abs_normalize_of_close hclose).le
  · obtain ⟨hlow, hhigh⟩ := normalize_mem_Ioc angle
    exact (abs_le.mpr ⟨hlow.le, hhigh⟩).trans (not_le.mp hclose).le

/-- The continuation of an angle is at most half a turn away from the previous value. -/
theorem abs_nearest_sub_le (value previous : ℝ) :
    |nearest value previous - previous| ≤ Real.pi := by
  have hnearest : nearest value previous = value +
      (Exact.roundHalfAway ((previous - value) / Scalar.fullTurn) : ℝ) * Scalar.two * Real.pi :=
    if_pos (Exact.isFinite_eq_true previous)
  have hround := Exact.abs_sub_roundHalfAway_le ((previous - value) / Scalar.fullTurn)
  have hturn : nearest value previous - previous = -(2 * Real.pi) *
      ((previous - value) / Scalar.fullTurn -
        Exact.roundHalfAway ((previous - value) / Scalar.fullTurn)) := by
    rw [hnearest, Exact.two_eq, mul_sub, Exact.fullTurn_eq, neg_mul,
      mul_div_cancel₀ _ Real.two_pi_pos.ne']
    ring
  calc |nearest value previous - previous|
      = 2 * Real.pi * |(previous - value) / Scalar.fullTurn -
          Exact.roundHalfAway ((previous - value) / Scalar.fullTurn)| := by
        rw [hturn, abs_mul, abs_neg, abs_of_pos Real.two_pi_pos]
    _ ≤ 2 * Real.pi * (1 / 2) := mul_le_mul_of_nonneg_left hround Real.two_pi_pos.le
    _ = Real.pi := by ring

/-! ### Rows of axis values -/

/-- The length of the way between two positions, over the axes that both have. -/
noncomputable def distance (values previous : List ℝ) : ℝ :=
  Real.sqrt (List.zipWith (fun value before ↦ Scalar.square (value - before)) values previous).sum

theorem sum_square_nonneg (values previous : List ℝ) : 0 ≤
    (List.zipWith (fun value before : ℝ ↦ Scalar.square (value - before)) values previous).sum := by
  refine List.sum_nonneg fun square hsquare ↦ ?_
  rw [← List.map_uncurry_zip_eq_zipWith] at hsquare
  obtain ⟨pair, _, rfl⟩ := List.mem_map.mp hsquare
  exact mul_self_nonneg _

theorem sq_distance (values previous : List ℝ) : distance values previous ^ 2 =
    (List.zipWith (fun value before ↦ Scalar.square (value - before)) values previous).sum :=
  Real.sq_sqrt (sum_square_nonneg values previous)

theorem distance_nonneg (values previous : List ℝ) : 0 ≤ distance values previous :=
  Real.sqrt_nonneg _

theorem sq_distance_cons (value before : ℝ) (values previous : List ℝ) :
    distance (value :: values) (before :: previous) ^ 2 =
      Scalar.square (value - before) + distance values previous ^ 2 := by
  rw [sq_distance, sq_distance, List.zipWith_cons_cons, List.sum_cons]

theorem sq_distance_nil_left (previous : List ℝ) : distance [] previous ^ 2 = 0 := by
  rw [sq_distance, List.zipWith_nil_left, List.sum_nil]

theorem sq_distance_nil_right (values : List ℝ) : distance values [] ^ 2 = 0 := by
  rw [sq_distance, List.zipWith_nil_right, List.sum_nil]

/-- Whole turns do not change the shortest angles. -/
theorem squaredDistance_congr {values others : List ℝ} (h : Turned values others)
    (previous : List ℝ) : squaredDistance values previous = squaredDistance others previous := by
  unfold Turned at h
  induction h generalizing previous with
  | nil => rfl
  | @cons value other values others hvalue _ ih =>
    rcases previous with - | ⟨before, rest⟩
    · rfl
    · have hangle : difference before value = difference before other := by
        refine normalize_congr ?_
        rw [Real.Angle.coe_sub, Real.Angle.coe_sub, hvalue]
      rw [squaredDistance_cons, squaredDistance_cons, hangle, ih rest]

/-- The shortest angles are no longer than the way. -/
theorem squaredDistance_le (values previous : List ℝ) :
    squaredDistance values previous ≤ distance values previous ^ 2 := by
  induction values generalizing previous with
  | nil =>
    rw [sq_distance_nil_left]
    exact le_rfl
  | cons value values ih =>
    rcases previous with - | ⟨before, rest⟩
    · rw [sq_distance_nil_right]
      exact le_rfl
    · rw [squaredDistance_cons, sq_distance_cons]
      exact add_le_add (abs_le_iff_mul_self_le.mp (abs_normalize_le _)) (ih rest)

/-- Every axis that has a previous value is at most half a turn away from it. -/
def Close (values previous : List ℝ) : Prop :=
  ∀ pair ∈ values.zip previous, |pair.1 - pair.2| ≤ Real.pi

/-- Within half a turn the shortest angles are as long as the way. -/
theorem squaredDistance_of_close {values previous : List ℝ} (h : Close values previous) :
    squaredDistance values previous = distance values previous ^ 2 := by
  induction values generalizing previous with
  | nil =>
    rw [sq_distance_nil_left]
    rfl
  | cons value values ih =>
    rcases previous with - | ⟨before, rest⟩
    · rw [sq_distance_nil_right]
      rfl
    · rw [Close, List.zip_cons_cons, List.forall_mem_cons] at h
      rw [squaredDistance_cons, sq_distance_cons, ih h.2]
      congr 1
      exact abs_eq_iff_mul_self_eq.mp (abs_normalize_of_close h.1)

theorem close_follow (values previous : List ℝ) : Close (follow values previous) previous := by
  fun_induction follow values previous with
  | case1 => exact List.forall_mem_nil _
  | case2 value values ih => exact List.forall_mem_nil _
  | case3 value values before rest ih =>
    rw [Close, List.zip_cons_cons, List.forall_mem_cons]
    exact ⟨abs_nearest_sub_le _ before, ih⟩

/-- Of all values of some angles the continuation is nearest to the previous position. -/
theorem distance_follow_le {values joints : List ℝ} (h : Turned joints values)
    (previous : List ℝ) :
    distance (follow values previous) previous ≤ distance joints previous := by
  refine (sq_le_sq₀ (distance_nonneg _ _) (distance_nonneg _ _)).mp ?_
  calc distance (follow values previous) previous ^ 2
      = squaredDistance (follow values previous) previous :=
        (squaredDistance_of_close (close_follow values previous)).symm
    _ = squaredDistance joints previous :=
        squaredDistance_congr ((turned_follow values previous).trans h.symm) previous
    _ ≤ distance joints previous ^ 2 := squaredDistance_le joints previous

end Angle

/-! ### The eight branches -/

namespace Solver

/-- The axis values of the branch with the number, as the solver gives them for following a path
from a position. -/
def branchJoints {α : Type} [Scalar α] (solver : Solver α) (flange : Pose α) (previous : List α)
    (index : Nat) : List α :=
  (solver.inverse flange (.ofBranch index) (solver.redundancy previous)).joints

/-- The branch with the number is the shortest way to the flange pose from the previous position,
and `closest` is the way. -/
structure IsShortest (solver : Solver ℝ) (flange : Pose ℝ) (previous : List ℝ) (index : Nat)
    (closest : ClosestBranch ℝ) : Prop where
  index_lt : index < 8
  configuration_eq : closest.configuration = .ofBranch index
  faults_eq : closest.faults =
    (solver.inverse flange (.ofBranch index) (solver.redundancy previous)).faults
  /-- The axes stand as on the branch, up to whole turns. -/
  turned : Angle.Turned closest.joints (solver.branchJoints flange previous index)
  length_eq : closest.joints.length = solver.axisCount
  close : Angle.Close closest.joints previous
  difference_eq : closest.difference = Angle.distance closest.joints previous ^ 2
  /-- No axis values lead to any of the branches on a shorter way. -/
  shortest : ∀ other < 8, ∀ joints,
    Angle.Turned joints (solver.branchJoints flange previous other) →
      Angle.distance closest.joints previous ≤ Angle.distance joints previous
  /-- The branches before this one are farther away. -/
  first : ∀ lower < index, ∀ joints,
    Angle.Turned joints (solver.branchJoints flange previous lower) →
      Angle.distance closest.joints previous < Angle.distance joints previous

/-- A candidate is compared by the length of its way. -/
theorem difference_follow (solver : Solver ℝ) (flange : Pose ℝ) (previous : List ℝ)
    (configuration : Configuration) :
    (solver.follow flange previous configuration).difference =
      Angle.distance (solver.follow flange previous configuration).joints previous ^ 2 :=
  Angle.squaredDistance_of_close (Angle.close_follow _ previous)

/-- There always is a closest branch, and it is the shortest way: of all axis values that agree with
one of the eight branches up to whole turns, its own are nearest to the previous position, and no
branch before it comes as near. -/
theorem closest_isShortest (solver : Solver ℝ) (flange : Pose ℝ) (previous : List ℝ) :
    ∃ index closest, solver.closest? flange previous = some closest ∧
      solver.IsShortest flange previous index closest := by
  obtain ⟨index, hindex, hclosest, hnearest, hfirst⟩ :=
    solver.exists_closest?_eq flange previous
  refine ⟨index, _, hclosest, hindex, rfl, rfl, Angle.turned_follow _ previous, ?_,
    Angle.close_follow _ previous, difference_follow solver flange previous _,
    fun other hother joints hjoints ↦ ?_, fun lower hlower joints hjoints ↦ ?_⟩
  · exact (Angle.turned_follow _ previous).length_eq.trans (solver.length_inverse flange _ _)
  · have hle := hnearest other hother
    rw [difference_follow, difference_follow,
      sq_le_sq₀ (Angle.distance_nonneg _ _) (Angle.distance_nonneg _ _)] at hle
    exact hle.trans (Angle.distance_follow_le hjoints previous)
  · have hlt := hfirst lower hlower
    rw [difference_follow, difference_follow,
      sq_lt_sq₀ (Angle.distance_nonneg _ _) (Angle.distance_nonneg _ _)] at hlt
    exact hlt.trans_le (Angle.distance_follow_le hjoints previous)

end Solver

end Toolpath
