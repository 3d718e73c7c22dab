import Toolpath.Proofs.Exact.Branches

/-!
The nearest branch. Every choice of the three flags is one of the eight branches
(`Solver.exists_mem_branches`), and the branch that is kept is as near to the previous position as
any of them (`Solver.difference_le_of_closest?`). The distance of two positions vanishes exactly
when they agree up to whole turns (`Angle.squaredDistance_eq_zero_iff`).
-/

set_option autoImplicit false
set_option relaxedAutoImplicit false

namespace Toolpath

/-! ### Distances -/

namespace Angle

theorem normalize_eq_zero_iff {angle : ℝ} : normalize angle = 0 ↔ (angle : Real.Angle) = 0 := by
  constructor
  · intro hzero
    rw [← coe_normalize, hzero, Real.Angle.coe_zero]
  · intro hzero
    have hreal := Real.Angle.toReal_coe_eq_self_iff_mem_Ioc.mpr (normalize_mem_Ioc angle)
    rw [← hreal, coe_normalize, hzero, Real.Angle.toReal_zero]

theorem difference_eq_zero_iff {start stop : ℝ} :
    difference start stop = 0 ↔ (stop : Real.Angle) = start := by
  rw [difference, normalize_eq_zero_iff, Real.Angle.coe_sub, sub_eq_zero]

theorem squaredDistance_cons (value previous : ℝ) (values rest : List ℝ) :
    squaredDistance (value :: values) (previous :: rest) =
      Scalar.square (difference previous value) + squaredDistance values rest := by
  unfold squaredDistance
  rw [List.zipWith_cons_cons]
  simp only [← List.sum_eq_foldl]
  exact List.sum_cons

theorem squaredDistance_nonneg (values previous : List ℝ) :
    0 ≤ squaredDistance values previous := by
  induction values generalizing previous with
  | nil => exact le_rfl
  | cons value values ih =>
    rcases previous with - | ⟨first, rest⟩
    · exact le_rfl
    · rw [squaredDistance_cons]
      exact add_nonneg (mul_self_nonneg _) (ih rest)

/-- Positions with as many axes are at no distance when they agree up to whole turns. -/
theorem squaredDistance_eq_zero_iff {values previous : List ℝ}
    (hlength : values.length = previous.length) :
    squaredDistance values previous = 0 ↔ Turned values previous := by
  induction values generalizing previous with
  | nil =>
    rw [List.length_nil, eq_comm, List.length_eq_zero_iff] at hlength
    rw [hlength]
    exact iff_of_true rfl .nil
  | cons value values ih =>
    rcases previous with - | ⟨first, rest⟩
    · exact absurd hlength (Nat.succ_ne_zero _)
    · have hparts := add_eq_zero_iff_of_nonneg (mul_self_nonneg (difference first value))
        (squaredDistance_nonneg values rest)
      rw [squaredDistance_cons]
      refine hparts.trans ?_
      rw [mul_self_eq_zero, difference_eq_zero_iff, ih (Nat.succ.inj hlength)]
      constructor
      · rintro ⟨hhead, htail⟩
        exact .cons hhead htail
      · rintro (- | ⟨hhead, htail⟩)
        exact ⟨hhead, htail⟩

theorem Turned.symm {values others : List ℝ} (h : Turned values others) : Turned others values :=
  List.Forall₂.flip (List.Forall₂.imp (fun _ _ ↦ Eq.symm) h)

end Angle

/-! ### Branches -/

namespace Solver

theorem exists_mem_branches (shoulder elbow wrist : Bool) : ∃ configuration ∈ branches,
    configuration.includes .shoulder = shoulder ∧ configuration.includes .elbow = elbow ∧
      configuration.includes .wrist = wrist := by
  revert shoulder elbow wrist
  decide

/-- The same where turning the shoulder over turns the elbow over too. -/
theorem exists_mem_branches_bne (shoulder elbow wrist : Bool) : ∃ configuration ∈ branches,
    configuration.includes .shoulder = shoulder ∧
      (configuration.includes .elbow != configuration.includes .shoulder) = elbow ∧
        configuration.includes .wrist = wrist := by
  revert shoulder elbow wrist
  decide

theorem isUndefined_of_mem_branches {configuration : Configuration}
    (h : configuration ∈ branches) : configuration.isUndefined = false := by
  revert h
  have hall : ∀ configuration ∈ branches, configuration.isUndefined = false := by decide
  exact hall configuration

/-- No branch is nearer to the previous position than the one that is kept. -/
theorem difference_le_of_closest? {solver : Solver ℝ} {flange : Pose ℝ} {previous : List ℝ}
    {closest : ClosestBranch ℝ} (h : solver.closest? flange previous = some closest)
    {configuration : Configuration} (hbranch : configuration ∈ branches) :
    closest.difference ≤ (solver.follow flange previous configuration).difference := by
  obtain ⟨index, _, hclosest, hnearest, _⟩ := solver.exists_closest?_eq flange previous
  obtain ⟨other, hother, rfl⟩ := List.mem_map.mp hbranch
  obtain rfl := Option.some.inj (hclosest.symm.trans h)
  exact hnearest other (List.mem_range.mp hother)

end Solver

end Toolpath
