import Toolpath.Cell.Scanning
import Toolpath.Proofs.Coupling.Loop

/-!
Scanning finds what following the couplings finds. `Found` is the invariant of the scans: every
solution found so far is the one that the group has after the groups that it waits for, and every
group of the cell is solved or still waits. A scan that solves nothing leaves groups that all wait
for one another, so that the walk from any of them never ends (`climb_isSome_of_stuck`).
`solveInOrder_eq_solve_of_placed` concludes that the order of the scans does not matter.
-/

set_option autoImplicit false
set_option relaxedAutoImplicit false

namespace Toolpath.Cell

variable {α : Type} [Scalar α]

theorem visit_free (cell : Cell α) {targets : List (Target α)} (previous : Option (List (List α)))
    (found : Nat → Option (Solution α)) {group : Nat} (hfree : carrier? targets group = none) :
    cell.visit targets previous found group = cell.solveGroup targets previous group none := by
  rw [visit, hfree]

theorem visit_carried (cell : Cell α) {targets : List (Target α)}
    (previous : Option (List (List α))) (found : Nat → Option (Solution α)) {group other : Nat}
    (hcarrier : carrier? targets group = some other) :
    cell.visit targets previous found group =
      (found other).bind (cell.solveCarried targets previous group other) := by
  rw [visit, hcarrier]
  cases hother : cell.groups[other]? with
  | none => cases found other <;> simp [solveCarried, hother]
  | some carrier =>
    cases htarget : targets[group]? with
    | none => cases found other <;> simp [solveCarried, htarget]
    | some target =>
      simp only [hother]
      congr 1
      funext solution
      rw [solveCarried, hother, htarget]

/-- What the scans keep. -/
structure Found (cell : Cell α) (targets : List (Target α)) (previous : Option (List (List α)))
    (waiting : List Nat) (found : Nat → Option (Solution α)) : Prop where
  sound : ∀ {group : Nat} {solution : Solution α}, found group = some solution →
    ∃ links, cell.solveAfter targets previous links group = some solution
  complete : ∀ group < cell.groups.length, group ∈ waiting ∨ (found group).isSome

section Scans

variable {cell : Cell α} {targets : List (Target α)} {previous : Option (List (List α))}

theorem Found.visit {waiting : List Nat} {found : Nat → Option (Solution α)}
    (hfound : Found cell targets previous waiting found) {group : Nat} {solution : Solution α}
    (h : cell.visit targets previous found group = some solution) :
    ∃ links, cell.solveAfter targets previous links group = some solution := by
  cases hcarrier : carrier? targets group with
  | none =>
    rw [visit_free cell previous found hcarrier] at h
    exact ⟨1, by rw [solveAfter_succ_free cell previous 0 hcarrier, h]⟩
  | some other =>
    rw [visit_carried cell previous found hcarrier] at h
    obtain ⟨carried, hcarried, hsolution⟩ := Option.bind_eq_some_iff.mp h
    obtain ⟨links, hlinks⟩ := hfound.sound hcarried
    exact ⟨links + 1, by
      rw [solveAfter_succ_carried cell previous links hcarrier, hlinks, Option.bind_some,
        hsolution]⟩

/-- One scan keeps the invariant. Here `kept` are groups that wait besides the scanned ones. -/
theorem Found.pass {waiting : List Nat} :
    ∀ (kept : List Nat) {found : Nat → Option (Solution α)},
      Found cell targets previous (kept ++ waiting) found →
        Found cell targets previous (kept ++ (cell.pass targets previous waiting found).1)
          (cell.pass targets previous waiting found).2 := by
  induction waiting with
  | nil => intro kept found hfound; exact hfound
  | cons group rest ih =>
    intro kept found hfound
    unfold Cell.pass
    cases hvisit : cell.visit targets previous found group with
    | none =>
      have hstep : Found cell targets previous ((kept ++ [group]) ++ rest) found := by
        simpa using hfound
      simpa using ih (kept ++ [group]) hstep
    | some solution =>
      refine ih kept ⟨?_, ?_⟩
      · intro g s hs
        by_cases hg : g = group
        · subst hg
          rw [if_pos rfl, Option.some.injEq] at hs
          exact hs ▸ hfound.visit hvisit
        · rw [if_neg hg] at hs
          exact hfound.sound hs
      · intro g hlt
        by_cases hg : g = group
        · exact Or.inr (by simp [hg])
        · rcases hfound.complete g hlt with hmem | hsome
          · left
            simpa [hg] using hmem
          · right
            simpa [hg] using hsome

theorem pass_sublist (cell : Cell α) (targets : List (Target α))
    (previous : Option (List (List α))) (waiting : List Nat) :
    ∀ found : Nat → Option (Solution α), (cell.pass targets previous waiting found).1.Sublist waiting := by
  induction waiting with
  | nil => intro found; exact List.Sublist.refl _
  | cons group rest ih =>
    intro found
    unfold pass
    cases cell.visit targets previous found group with
    | none => exact (ih found).cons_cons group
    | some solution => exact (ih _).cons group

/-- A scan after which as many groups wait as before could visit none of them. -/
theorem visit_eq_none_of_stuck {waiting : List Nat} {found : Nat → Option (Solution α)}
    (hstuck : waiting.length ≤ (cell.pass targets previous waiting found).1.length) :
    ∀ group ∈ waiting, cell.visit targets previous found group = none := by
  induction waiting with
  | nil => simp
  | cons group rest ih =>
    unfold pass at hstuck
    cases hvisit : cell.visit targets previous found group with
    | none =>
      simp only [hvisit, List.length_cons, Nat.add_le_add_iff_right] at hstuck
      exact List.forall_mem_cons.mpr ⟨hvisit, ih hstuck⟩
    | some solution =>
      simp only [hvisit] at hstuck
      have hle := (pass_sublist cell targets previous rest fun g ↦
        if g = group then some solution else found g).length_le
      exact absurd hstuck (Nat.not_le_of_lt (Nat.lt_succ_of_le hle))

/-- Where no waiting group can be visited, each of them waits for another one of them. -/
theorem climb_isSome_of_stuck (hcount : targets.length = cell.groups.length)
    (hframes : cell.checkFrames targets = .ok ()) {waiting : List Nat}
    {found : Nat → Option (Solution α)} (hfound : Found cell targets previous waiting found)
    (hstuck : ∀ group ∈ waiting, cell.visit targets previous found group = none) (steps : Nat) :
    ∀ group < cell.groups.length, group ∈ waiting → (climb targets steps group).isSome := by
  induction steps with
  | zero => intro group _ _; rfl
  | succ steps ih =>
    intro group hgroup hmem
    have hnone := hstuck group hmem
    cases hcarrier : carrier? targets group with
    | none =>
      have hsome := solveGroup_isSome cell hcount previous hgroup none
      rw [← visit_free cell previous found hcarrier, hnone] at hsome
      cases hsome
    | some other =>
      have hfollows := carrier?_eq_some_iff.mp hcarrier
      rw [climb, hcarrier, Option.bind_some]
      refine ih other (hfollows.lt hframes) ?_
      rcases hfound.complete other (hfollows.lt hframes) with hwaits | hsome
      · exact hwaits
      · obtain ⟨solution, hsolution⟩ := Option.isSome_iff_exists.mp hsome
        rw [visit_carried cell previous found hcarrier, hsolution, Option.bind_some] at hnone
        have hcarried := solveCarried_isSome cell hcount hframes previous hgroup hfollows solution
        rw [hnone] at hcarried
        cases hcarried

/-- Scanning ends with every group solved, or with groups that no number of links solves. -/
theorem scan_cases (hcount : targets.length = cell.groups.length)
    (hframes : cell.checkFrames targets = .ok ()) :
    ∀ {waiting : List Nat} {found : Nat → Option (Solution α)},
      Found cell targets previous waiting found →
      (∀ group ∈ waiting, group < cell.groups.length) →
        (∃ solved, cell.scan targets previous waiting found = some solved ∧
          Found cell targets previous [] solved) ∨
        (cell.scan targets previous waiting found = none ∧ ∃ group < cell.groups.length,
          cell.solveAfter targets previous cell.groups.length group = none) := by
  intro waiting
  induction hsize : waiting.length using Nat.strong_induction_on generalizing waiting with
  | _ size ih =>
    intro found hfound hwaiting
    cases hcons : waiting with
    | nil => exact Or.inl ⟨found, by rw [scan]; rfl, hcons ▸ hfound⟩
    | cons group rest =>
      rw [← hcons]
      have hnonempty : ¬ waiting.isEmpty := by rw [hcons]; simp
      rw [scan, if_neg hnonempty]
      by_cases hprogress : (cell.pass targets previous waiting found).1.length < waiting.length
      · simp only [hprogress, if_true]
        refine ih _ (hsize ▸ hprogress) rfl (hfound.pass []) fun g hg ↦ ?_
        exact hwaiting g ((pass_sublist cell targets previous waiting found).subset hg)
      · right
        have hgroup : group < cell.groups.length := hwaiting group (by rw [hcons]; simp)
        have hstuck := visit_eq_none_of_stuck (Nat.le_of_not_lt hprogress)
        refine ⟨by simp only [hprogress, if_false], group, hgroup, ?_⟩
        rw [solveAfter_eq_none_iff cell hcount hframes previous _ hgroup]
        exact climb_isSome_of_stuck hcount hframes hfound hstuck _ group hgroup
          (by rw [hcons]; simp)

end Scans

/-- The order in which the groups are scanned does not change the outcome. -/
theorem solveInOrder_eq_solve_of_placed (cell : Cell α) {targets : List (Target α)}
    (hcount : targets.length = cell.groups.length) (hframes : cell.checkFrames targets = .ok ())
    (previous : Option (List (List α))) {order : List Nat}
    (horder : order.Perm (List.range cell.groups.length)) :
    cell.solveInOrder order targets previous = cell.solve targets previous := by
  have hstart : Found cell targets previous order fun _ ↦ none :=
    ⟨by simp, fun group hgroup ↦ Or.inl (horder.mem_iff.mpr (List.mem_range.mpr hgroup))⟩
  have hlt : ∀ group ∈ order, group < cell.groups.length :=
    fun group hmem ↦ List.mem_range.mp (horder.mem_iff.mp hmem)
  simp only [solveInOrder, hcount, hframes, ne_eq, not_true_eq_false, if_false]
  rcases scan_cases hcount hframes hstart hlt with ⟨solved, hscan, hsolved⟩ | ⟨hscan, hnone⟩
  · rw [hscan]
    symm
    rw [solve_eq_ok_iff_map cell hcount hframes, map_some_filterMap]
    · refine List.map_congr_left fun group hmem ↦ ?_
      have hgroup := List.mem_range.mp hmem
      have hsome := (hsolved.complete group hgroup).resolve_left List.not_mem_nil
      obtain ⟨solution, hsolution⟩ := Option.isSome_iff_exists.mp hsome
      obtain ⟨links, hlinks⟩ := hsolved.sound hsolution
      rw [solveAfter_eq_of_eq_some cell hcount hframes previous hgroup hlinks, hsolution]
    · intro group hmem
      exact (hsolved.complete group (List.mem_range.mp hmem)).resolve_left List.not_mem_nil
  · rw [hscan, (solve_eq_loop_iff cell hcount hframes previous).mpr
      ((exists_solveAfter_eq_none_iff cell hcount hframes previous).mp hnone)]

end Toolpath.Cell
