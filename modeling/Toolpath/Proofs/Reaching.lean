import Toolpath.Proofs.Exact.Scalar
import Toolpath.Proofs.Planes

/-!
An arm has a value for each of its axes, whichever way it is asked to move. Every branch has them
(`Solver.length_inverse`), but the closest one is only found where a branch can be compared with the
previous position: the sum of the squared angles between them has to be a finite number.
`FiniteAngles` is what the numbers must have for that, in floating point as in the exact numbers;
then some branch is the closest to any previous position of finite values
(`Solver.exists_closest?_of_isFinite`).
-/

set_option autoImplicit false
set_option relaxedAutoImplicit false

namespace Toolpath

/-- Numbers in which angles stay finite, as they do in floating point: neither does an angle
overflow that is reduced or moved next to another one, nor the sum of the squares of as many reduced
angles as an arm has axes. -/
class FiniteAngles (α : Type) [Scalar α] : Prop where
  isFinite_zero : Scalar.isFinite (0 : α) = true
  isFinite_normalize {angle : α} :
    Scalar.isFinite angle = true → Scalar.isFinite (Angle.normalize angle) = true
  isFinite_nearest_sub {value previous : α} :
    Scalar.isFinite value = true → Scalar.isFinite previous = true →
      Scalar.isFinite (Angle.nearest (Angle.normalize value) previous - previous) = true
  isFinite_sumSquares {angles : List α} :
    angles.length ≤ 7 → (∀ angle ∈ angles, Scalar.isFinite angle = true) →
      Scalar.isFinite ((angles.map fun angle ↦ Scalar.square (Angle.normalize angle)).foldl
        (· + ·) 0) = true

instance : FiniteAngles ℝ where
  isFinite_zero := Exact.isFinite_eq_true _
  isFinite_normalize := fun _ ↦ Exact.isFinite_eq_true _
  isFinite_nearest_sub := fun _ _ ↦ Exact.isFinite_eq_true _
  isFinite_sumSquares := fun _ _ ↦ Exact.isFinite_eq_true _

variable {α : Type} [Scalar α]

/-! ### Branches -/

theorem length_wristAngles (residual : Basis α) (positive : Bool) :
    (wristAngles residual positive).1.length = 3 := by
  unfold wristAngles
  dsimp only
  split_ifs <;> rfl

theorem length_chainFrom {links : List (Link α)} {angles : List α}
    (h : angles.length = links.length) :
    ∀ start : Pose α, (chainFrom start links angles).length = links.length := by
  induction links generalizing angles with
  | nil => intro start; rfl
  | cons link links ih =>
    obtain ⟨angle, angles, rfl⟩ := List.exists_cons_of_length_eq_add_one h
    intro start
    rw [chainFrom, List.length_cons, List.length_cons, ih (Nat.succ.inj h)]

namespace Solver

theorem length_inverse (solver : Solver α) (flange : Pose α) (configuration : Configuration)
    (redundancy : α) :
    (solver.inverse flange configuration redundancy).joints.length = solver.axisCount := by
  rcases solver with arm | arm | arm
  · show ((_ ++ (wristAngles _ _).1).map settle).length = 6
    rw [List.length_map, List.length_append, length_wristAngles]
    rfl
  · rfl
  · show ((_ ++ (wristAngles _ _).1).map settle).length = 7
    rw [List.length_map, List.length_append, length_wristAngles]
    rfl

omit [Scalar α] in
theorem axisCount_le (solver : Solver α) : solver.axisCount ≤ 7 := by
  rcases solver with arm | arm | arm
  · exact Nat.le_succ 6
  · exact Nat.le_succ 6
  · exact Nat.le_refl 7

/-- The frames of the joints, one for each axis. -/
theorem length_forward (solver : Solver α) {joints : List α}
    (h : joints.length = solver.axisCount) : (solver.forward joints).length = solver.axisCount := by
  rcases solver with arm | arm | arm <;> exact length_chainFrom h 1

end Solver

/-! ### Following a position -/

namespace Angle

theorem length_follow (values previous : List α) :
    (follow values previous).length = values.length := by
  fun_induction follow values previous with
  | case1 => rfl
  | case2 value values ih => rw [List.length_cons, List.length_cons, ih]
  | case3 value values before rest ih => rw [List.length_cons, List.length_cons, ih]

/-- What is squared and summed are the reduced ways from the previous values. -/
theorem squaredDistance_follow (values previous : List α) :
    squaredDistance (follow values previous) previous =
      ((List.zipWith (fun value before ↦ nearest (normalize value) before - before) values
        previous).map fun way ↦ Scalar.square (normalize way)).foldl (· + ·) 0 := by
  rw [squaredDistance, List.map_zipWith]
  congr 1
  fun_induction follow values previous with
  | case1 => rfl
  | case2 value values ih => rfl
  | case3 value values before rest ih => rw [List.zipWith_cons_cons, ih, List.zipWith_cons_cons,
      difference]

end Angle

section Closest

variable [FiniteAngles α]

theorem isFinite_settle (value : α) : Scalar.isFinite (settle value) = true := by
  rw [settle]
  split_ifs with hfinite
  · exact FiniteAngles.isFinite_normalize hfinite
  · exact FiniteAngles.isFinite_zero

namespace Solver

theorem isFinite_of_mem_inverse {solver : Solver α} {flange : Pose α}
    {configuration : Configuration} {redundancy value : α}
    (h : value ∈ (solver.inverse flange configuration redundancy).joints) :
    Scalar.isFinite value = true := by
  rcases solver with arm | arm | arm <;>
  · obtain ⟨given, -, rfl⟩ := List.mem_map.mp h
    exact isFinite_settle given

/-- Every branch can be compared with a previous position of finite values. -/
theorem isFinite_difference_follow (solver : Solver α) (flange : Pose α) {previous : List α}
    (hprevious : ∀ value ∈ previous, Scalar.isFinite value = true)
    (configuration : Configuration) :
    Scalar.isFinite (solver.follow flange previous configuration).difference = true := by
  let branch := solver.inverse flange configuration (solver.redundancy previous)
  show Scalar.isFinite
    (Angle.squaredDistance (Angle.follow branch.joints previous) previous) = true
  rw [Angle.squaredDistance_follow]
  refine FiniteAngles.isFinite_sumSquares ?_ fun way hway ↦ ?_
  · rw [List.length_zipWith, solver.length_inverse]
    exact (Nat.min_le_left _ _).trans solver.axisCount_le
  · rw [← List.map_uncurry_zip_eq_zipWith] at hway
    obtain ⟨⟨value, before⟩, hpair, rfl⟩ := List.mem_map.mp hway
    obtain ⟨hvalue, hbefore⟩ := List.of_mem_zip hpair
    exact FiniteAngles.isFinite_nearest_sub (isFinite_of_mem_inverse hvalue)
      (hprevious before hbefore)

omit [FiniteAngles α] in
theorem exists_mem_of_foldl_nearer (candidates : List (ClosestBranch α)) :
    ∀ held : ClosestBranch α,
      ∃ kept ∈ held :: candidates, candidates.foldl nearer (some held) = some kept := by
  induction candidates with
  | nil => exact fun held ↦ ⟨held, List.mem_singleton_self held, rfl⟩
  | cons candidate rest ih =>
    intro held
    rw [List.foldl_cons, nearer]
    split_ifs with hnearer
    · obtain ⟨kept, hmem, hfold⟩ := ih candidate
      exact ⟨kept, List.mem_cons_of_mem held hmem, hfold⟩
    · obtain ⟨kept, hmem, hfold⟩ := ih held
      rcases List.mem_cons.mp hmem with rfl | hlater
      · exact ⟨kept, List.mem_cons_self, hfold⟩
      · exact ⟨kept, List.mem_cons_of_mem held (List.mem_cons_of_mem candidate hlater), hfold⟩

/-- Some branch is the closest to a previous position of finite values. -/
theorem exists_closest?_of_isFinite (solver : Solver α) (flange : Pose α) {previous : List α}
    (hprevious : ∀ value ∈ previous, Scalar.isFinite value = true) :
    ∃ configuration ∈ branches,
      solver.closest? flange previous = some (solver.follow flange previous configuration) := by
  have hbranches : branches = .ofBranch 0 :: (List.range' 1 7).map .ofBranch := rfl
  have hfinite := solver.isFinite_difference_follow flange hprevious (.ofBranch 0)
  obtain ⟨kept, hmem, hfold⟩ := exists_mem_of_foldl_nearer
    (((List.range' 1 7).map Configuration.ofBranch).map (solver.follow flange previous))
    (solver.follow flange previous (.ofBranch 0))
  rw [← List.map_cons, ← hbranches] at hmem
  obtain ⟨configuration, hconfiguration, rfl⟩ := List.mem_map.mp hmem
  refine ⟨configuration, hconfiguration, ?_⟩
  rw [closest?, hbranches, List.map_cons, List.foldl_cons, nearer, if_pos hfinite, hfold]

end Solver

namespace Arm

/-- For any pose of the flange, branch and previous position of finite values. -/
theorem length_reach (arm : Arm α) (flange : Pose α) (forced : Option Configuration)
    {previous : Option (List α)}
    (hprevious : ∀ row ∈ previous, ∀ value ∈ row, Scalar.isFinite value = true) :
    (arm.reach flange forced previous).joints.length = arm.axisCount := by
  rcases forced with - | forced <;> rcases previous with - | previous
  · exact arm.solver.length_inverse _ _ _
  · obtain ⟨configuration, -, hclosest⟩ :=
      arm.solver.exists_closest?_of_isFinite flange (hprevious previous rfl)
    simp only [reach, hclosest]
    exact (Angle.length_follow _ _).trans (arm.solver.length_inverse _ _ _)
  · exact arm.solver.length_inverse _ _ _
  · exact (Angle.length_follow _ _).trans (arm.solver.length_inverse _ _ _)

omit [FiniteAngles α] in
/-- Joint values are cut or filled up with zeros to the count of the axes. -/
theorem joints_place (arm : Arm α) (values : List α) :
    (arm.place values).joints = resize arm.axisCount values := by
  show (if values.length = arm.axisCount then values else resize arm.axisCount values) = _
  split_ifs with hcount
  · exact (resize_eq_self hcount).symm
  · rfl

theorem length_position (arm : Arm α) (target : Target α) (base frame : Pose α)
    {previous : Option (List α)}
    (hprevious : ∀ row ∈ previous, ∀ value ∈ row, Scalar.isFinite value = true) :
    (arm.position target base frame previous).joints.length = arm.axisCount := by
  rw [position]
  split
  · exact arm.length_reach _ _ hprevious
  · rw [joints_place, length_resize]

end Arm

end Closest

end Toolpath
