import Toolpath.Proofs.Exact.Turning
import Toolpath.Proofs.Reaching

/-!
The branch that an arm takes. Whatever way it is chosen, the position of an arm for a flange pose
is one analytic branch with its faults, turned by whole turns (`Arm.exists_inverse_of_reach`).
Over the real numbers every branch can be compared with the previous position, and the closest one
is the first that no other is nearer than (`Solver.exists_closest?_eq`).
-/

set_option autoImplicit false
set_option relaxedAutoImplicit false

namespace Toolpath

/-! ### The closest branch -/

namespace Solver

/-- The candidate that is kept is nearer than those before it, and none after it is nearer. -/
theorem exists_foldl_nearer_eq {candidates : List (ClosestBranch ℝ)} (h : candidates ≠ []) :
    ∃ earlier kept later, candidates = earlier ++ kept :: later ∧
      candidates.foldl nearer none = some kept ∧
      (∀ candidate ∈ earlier, kept.difference < candidate.difference) ∧
      ∀ candidate ∈ later, kept.difference ≤ candidate.difference := by
  induction candidates using List.reverseRecOn with
  | nil => exact absurd rfl h
  | append_singleton candidates next ih =>
    rw [List.foldl_concat]
    by_cases hnone : candidates = []
    · subst hnone
      exact ⟨[], next, [], rfl, if_pos (Exact.isFinite_eq_true _), List.forall_mem_nil _,
        List.forall_mem_nil _⟩
    obtain ⟨earlier, kept, later, hsplit, hfold, hearlier, hlater⟩ := ih hnone
    rw [hfold, nearer]
    by_cases hnearer : next.difference < kept.difference
    · refine ⟨candidates, next, [], rfl, if_pos hnearer, fun candidate hcandidate ↦ ?_,
        List.forall_mem_nil _⟩
      rw [hsplit, List.mem_append, List.mem_cons] at hcandidate
      rcases hcandidate with hbefore | rfl | hafter
      · exact hnearer.trans (hearlier candidate hbefore)
      · exact hnearer
      · exact hnearer.trans_le (hlater candidate hafter)
    · refine ⟨earlier, kept, later ++ [next], by rw [hsplit, List.append_assoc, List.cons_append],
        if_neg hnearer, hearlier, fun candidate hcandidate ↦ ?_⟩
      rcases List.mem_append.mp hcandidate with hafter | hlast
      · exact hlater candidate hafter
      · obtain rfl := List.mem_singleton.mp hlast
        exact not_lt.mp hnearer

theorem getElem?_candidates (solver : Solver ℝ) (flange : Pose ℝ) (previous : List ℝ)
    {index : Nat} (hindex : index < 8) :
    (branches.map (solver.follow flange previous))[index]? =
      some (solver.follow flange previous (.ofBranch index)) := by
  rw [branches, List.map_map, List.getElem?_map, List.getElem?_range hindex]
  rfl

/-- The branch that is kept is the first one that no other branch is nearer than. -/
theorem exists_closest?_eq (solver : Solver ℝ) (flange : Pose ℝ) (previous : List ℝ) :
    ∃ index < 8, solver.closest? flange previous =
        some (solver.follow flange previous (.ofBranch index)) ∧
      (∀ other < 8, (solver.follow flange previous (.ofBranch index)).difference ≤
        (solver.follow flange previous (.ofBranch other)).difference) ∧
      ∀ lower < index, (solver.follow flange previous (.ofBranch index)).difference <
        (solver.follow flange previous (.ofBranch lower)).difference := by
  have hsome : branches.map (solver.follow flange previous) ≠ [] := by simp [branches]
  obtain ⟨earlier, closest, later, hsplit, hclosest, hearlier, hlater⟩ :=
    exists_foldl_nearer_eq hsome
  have hcount : earlier.length < 8 := by
    have hlength := congrArg List.length hsplit
    simp only [branches, List.length_map, List.length_range, List.length_append,
      List.length_cons] at hlength
    omega
  -- The branch stands behind the earlier ones, at the place that is their number.
  have hplace := getElem?_candidates solver flange previous hcount
  rw [hsplit, List.getElem?_append_right le_rfl, Nat.sub_self, List.getElem?_cons_zero] at hplace
  obtain rfl := Option.some.inj hplace
  refine ⟨earlier.length, hcount, hclosest, fun other hother ↦ ?_, fun lower hlower ↦ ?_⟩
  · have hmem := List.mem_of_getElem? (getElem?_candidates solver flange previous hother)
    rw [hsplit, List.mem_append, List.mem_cons] at hmem
    rcases hmem with hbefore | hsame | hafter
    · exact (hearlier _ hbefore).le
    · exact hsame ▸ le_rfl
    · exact hlater _ hafter
  · have hmem := getElem?_candidates solver flange previous (hlower.trans hcount)
    rw [hsplit, List.getElem?_append_left hlower] at hmem
    exact hearlier _ (List.mem_of_getElem? hmem)

theorem exists_follow_of_closest? (solver : Solver ℝ) (flange : Pose ℝ) (previous : List ℝ) :
    ∃ configuration ∈ branches,
      solver.closest? flange previous = some (solver.follow flange previous configuration) :=
  solver.exists_closest?_of_isFinite flange fun _ _ ↦ Exact.isFinite_eq_true _

end Solver

/-! ### Forced, default and closest branches -/

/-- The position for a flange pose is a branch, up to whole turns of the axes. -/
theorem Arm.exists_inverse_of_reach (arm : Arm ℝ) (flange : Pose ℝ)
    (forced : Option Configuration) (previous : Option (List ℝ)) :
    ∃ configuration redundancy,
      (arm.reach flange forced previous).faults =
        (arm.solver.inverse flange configuration redundancy).faults ∧
      Angle.Turned (arm.reach flange forced previous).joints
        (arm.solver.inverse flange configuration redundancy).joints := by
  rcases forced with - | forced <;> rcases previous with - | previous
  · exact ⟨.empty, 0, rfl, Angle.turned_refl _⟩
  · obtain ⟨configuration, -, hclosest⟩ := arm.solver.exists_follow_of_closest? flange previous
    have hreach : arm.reach flange none (some previous) =
        let closest := arm.solver.follow flange previous configuration
        ⟨closest.joints, closest.configuration, closest.faults⟩ := by
      simp only [reach, hclosest]
    rw [hreach]
    exact ⟨configuration, arm.solver.redundancy previous, rfl, Angle.turned_follow _ previous⟩
  · exact ⟨forced, 0, rfl, Angle.turned_refl _⟩
  · exact ⟨forced, arm.solver.redundancy previous, rfl, Angle.turned_follow _ previous⟩

end Toolpath
