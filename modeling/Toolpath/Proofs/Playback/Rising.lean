import Toolpath.Proofs.Exact.Scalar
import Toolpath.Proofs.Duration

/-!
The time of a program never goes back. `OrderedScalar` is what the order of the numbers must have
for that, in floating point as in the exact numbers: sums of numbers that are not negative do not
fall below their first summand. The times of the keyframes then rise from the start of a program to
its duration (`Stages.rising`), since every substep and every dwell adds a time that is not
negative, and the keyframes of a motion are some of its substeps in their order.
-/

set_option autoImplicit false
set_option relaxedAutoImplicit false

namespace Toolpath

/-- Numbers that are ordered as floating point numbers are: any two that are comparable with
themselves are comparable, and adding something that is not negative to something that is not
negative gives no less. -/
class OrderedScalar (α : Type) [Scalar α] : Prop where
  le_trans {x y z : α} : x ≤ y → y ≤ z → x ≤ z
  le_total {x y : α} : x ≤ x → y ≤ y → x ≤ y ∨ y ≤ x
  refl_of_le {x y : α} : x ≤ y → x ≤ x ∧ y ≤ y
  lt_iff {x y : α} : x < y ↔ x ≤ y ∧ ¬ y ≤ x
  zero_le_zero : (0 : α) ≤ 0
  le_add {x y : α} : 0 ≤ x → 0 ≤ y → x ≤ x + y

instance : OrderedScalar ℝ where
  le_trans := le_trans
  le_total := fun _ _ ↦ le_total _ _
  refl_of_le := fun _ ↦ ⟨le_rfl, le_rfl⟩
  lt_iff := lt_iff_le_not_ge
  zero_le_zero := le_rfl
  le_add := fun _ hy ↦ le_add_of_nonneg_right hy

variable {α : Type} [Scalar α]

/-! ### Ordered numbers -/

namespace OrderedScalar

variable [OrderedScalar α] {x y z : α}

theorem le_of_lt (h : x < y) : x ≤ y :=
  (lt_iff.mp h).1

theorem not_le_of_lt (h : x < y) : ¬ y ≤ x :=
  (lt_iff.mp h).2

theorem lt_of_lt_of_le (h : x < y) (hle : y ≤ z) : x < z :=
  lt_iff.mpr ⟨le_trans (le_of_lt h) hle, fun hback ↦ not_le_of_lt h (le_trans hle hback)⟩

theorem lt_of_le_of_lt (hle : x ≤ y) (h : y < z) : x < z :=
  lt_iff.mpr ⟨le_trans hle (le_of_lt h), fun hback ↦ not_le_of_lt h (le_trans hback hle)⟩

theorem le_of_not_lt (hx : x ≤ x) (hy : y ≤ y) (h : ¬ x < y) : y ≤ x := by
  by_contra hle
  exact h (lt_iff.mpr ⟨(le_total hx hy).resolve_right hle, hle⟩)

theorem larger_nonneg (hx : 0 ≤ x) : 0 ≤ Scalar.larger x y := by
  unfold Scalar.larger
  split_ifs with hlt hself
  · exact le_trans hx (le_of_lt hlt)
  · exact hx
  · exact absurd (refl_of_le hx).2 hself

/-- No maximum is negative, not even one of values that are no numbers. -/
theorem maximum_nonneg (values : List α) : 0 ≤ Scalar.maximum values := by
  suffices hfold : ∀ start : α, 0 ≤ start → 0 ≤ values.foldl Scalar.larger start from
    hfold 0 zero_le_zero
  induction values with
  | nil => exact fun _ hstart ↦ hstart
  | cons value rest ih => exact fun start hstart ↦ ih _ (larger_nonneg hstart)

end OrderedScalar

/-! ### Rising times -/

/-- The times of the steps rise from one time to another. -/
def Rising (start : α) (steps : List (Step α)) (stop : α) : Prop :=
  (start :: (steps.map Step.totalTime ++ [stop])).Pairwise (· ≤ ·)

namespace Rising

variable {start middle stop : α} {steps others : List (Step α)}

theorem le (h : Rising start steps stop) : start ≤ stop :=
  List.rel_of_pairwise_cons h (by simp)

theorem sublist (h : Rising start steps stop) (hsublist : others.Sublist steps) :
    Rising start others stop :=
  List.Pairwise.sublist (((hsublist.map Step.totalTime).append_right _).cons_cons start) h

theorem congr (h : Rising start steps stop)
    (htimes : others.map Step.totalTime = steps.map Step.totalTime) : Rising start others stop := by
  rw [Rising, htimes]
  exact h

theorem nil (h : start ≤ stop) : Rising start [] stop := by
  simpa [Rising] using h

theorem append [OrderedScalar α] (hfirst : Rising start steps middle)
    (hsecond : Rising middle others stop) : Rising start (steps ++ others) stop := by
  have hthrough : ∀ {early late : α}, early ≤ middle → middle ≤ late → early ≤ late :=
    OrderedScalar.le_trans
  unfold Rising at hfirst hsecond ⊢
  rw [← List.cons_append, List.pairwise_append] at hfirst
  rw [List.pairwise_cons] at hsecond
  rw [List.map_append, List.append_assoc, ← List.cons_append, List.pairwise_append]
  exact ⟨hfirst.1, hsecond.2, fun early hearly late hlate ↦
    hthrough (hfirst.2.2 early hearly middle (List.mem_singleton_self middle))
      (hsecond.1 late hlate)⟩

theorem singleton [OrderedScalar α] {step : Step α} (hstart : start ≤ step.totalTime)
    (hstop : step.totalTime ≤ stop) : Rising start [step] stop := by
  have hthrough := OrderedScalar.le_trans hstart hstop
  simpa [Rising, hstart, hstop] using hthrough

/-- Of two steps the later one is not earlier in time, and no step is after the end. -/
theorem getElem?_le (h : Rising start steps stop) {place later : Nat} {step other : Step α}
    (hstep : steps[place]? = some step) (hother : steps[later]? = some other)
    (hlt : place < later) : step.totalTime ≤ other.totalTime := by
  have hpairs := (List.pairwise_append.mp (List.pairwise_cons.mp h).2).1
  rw [List.pairwise_map] at hpairs
  obtain ⟨hplace, rfl⟩ := List.getElem?_eq_some_iff.mp hstep
  obtain ⟨hlater, rfl⟩ := List.getElem?_eq_some_iff.mp hother
  exact List.pairwise_iff_getElem.mp hpairs place later hplace hlater hlt

theorem mem_le (h : Rising start steps stop) {step : Step α} (hstep : step ∈ steps) :
    start ≤ step.totalTime ∧ step.totalTime ≤ stop := by
  have hmem : step.totalTime ∈ steps.map Step.totalTime := List.mem_map_of_mem hstep
  obtain ⟨hstart, hrest⟩ := List.pairwise_cons.mp h
  exact ⟨hstart _ (List.mem_append_left _ hmem),
    (List.pairwise_append.mp hrest).2.2 _ hmem _ (List.mem_singleton_self stop)⟩

end Rising

/-! ### The running time -/

variable [OrderedScalar α]

open OrderedScalar

theorem le_totalTime_clockedSubstep (cell : Cell α) (divisions : Nat) (last step : Step α)
    {total : α} (htotal : 0 ≤ total) :
    total ≤ (clockedSubstep cell divisions last step total).step.totalTime :=
  le_add htotal (maximum_nonneg _)

/-- Every substep takes a time that is not negative. -/
theorem rising_substepsFrom {cell : Cell α} {previous next : Step α} {divisions count : Nat} :
    ∀ {number : Nat} {last : Step α} {total : α} {substeps : List (Substep α)}
      {faults : List ProgramFault}, 0 ≤ total →
      substepsFrom cell previous next divisions count number last total = .ok (substeps, faults) →
        Rising total (substeps.map Substep.step) (lastTime total (substeps.map Substep.step)) := by
  induction count with
  | zero =>
    intro number last total substeps faults htotal h
    obtain ⟨rfl, _⟩ := Prod.mk.inj (Except.ok.inj h)
    exact .nil (refl_of_le htotal).2
  | succ count ih =>
    intro number last total substeps faults htotal h
    obtain ⟨_, _, step, -, ⟨_, rest, hrest, rfl⟩ | ⟨_, rfl, _⟩⟩ := substepsFrom_succ_cases h
    · have hlater := le_totalTime_clockedSubstep cell divisions last step htotal
      rw [List.map_cons, ← List.singleton_append, lastTime_append]
      exact (Rising.singleton hlater (refl_of_le hlater).2).append
        (ih (le_trans htotal hlater) hrest)
    · exact .nil (refl_of_le htotal).2

theorem rising_dwelling (arrived : Step α) {final : Substep α} (hfinal : 0 ≤ final.step.totalTime) :
    Rising final.step.totalTime (dwelling arrived final)
      (if 0 < arrived.dwell then final.step.totalTime + arrived.dwell
        else final.step.totalTime) := by
  unfold dwelling
  split_ifs with hdwell
  · have hlater := le_add hfinal (le_of_lt hdwell)
    exact .singleton hlater (refl_of_le hlater).2
  · exact .nil (refl_of_le hfinal).2

/-- A motion takes a time that is not negative, and its keyframes lie within it. -/
theorem Travelled.rising {cell : Cell α} {stepSize : α} {previous next : Step α}
    {motion : Travel α} (h : Travelled cell stepSize previous next previous.totalTime motion)
    (hstart : 0 ≤ previous.totalTime) :
    Rising previous.totalTime motion.keyframes motion.total := by
  by_cases hfaults : motion.faults = []
  · obtain ⟨solutions, divisions, initial, final, _, _, hsubsteps, rfl⟩ :=
      h.exists_completed hfaults
    have hsolved := rising_substepsFrom hstart hsubsteps
    have hkept := hsolved.sublist (turningPoints_concat_sublist cell.hasRedundantArm initial final)
    rw [List.map_append, List.map_singleton, lastTime_concat] at hkept
    have hrow := hkept.append (rising_dwelling (arrivedAt previous next solutions)
      (le_trans hstart hkept.le))
    rw [keyframes_completeTravel, total_completeTravel_eq_ite]
    exact hrow.congr (map_stampDeltas (fun _ _ ↦ rfl) _)
  · cases h with
    | undefined => exact .nil (refl_of_le hstart).2
    | unreached => exact .nil (refl_of_le hstart).2
    | completed => exact absurd rfl hfaults
    | @stopped solutions divisions substeps faults _ _ _ hsubsteps =>
      have hsolved := rising_substepsFrom hstart hsubsteps
      have hkept := hsolved.sublist
        ((turningPoints_sublist cell.hasRedundantArm substeps).trans (List.dropLast_sublist _))
      rw [lastTime, List.getLast?_map, Option.map_map] at hkept
      exact hkept.congr (map_stampDeltas (fun _ _ ↦ rfl) _)

theorem Motions.rising {cell : Cell α} {stepSize : α} {previous : Step α} {rest : List (Step α)}
    {motions : List (Travel α)} (h : Motions cell stepSize previous rest motions)
    (hstart : 0 ≤ previous.totalTime) :
    Rising previous.totalTime (motions.flatMap Travel.keyframes)
      (runningTotal previous.totalTime motions) := by
  induction h with
  | done => exact .nil (refl_of_le hstart).2
  | stopped rest htravelled _ =>
    rw [List.flatMap_singleton, runningTotal_cons]
    exact htravelled.rising hstart
  | onward htravelled hfaults _ ih =>
    have hmotion := htravelled.rising hstart
    rw [← htravelled.totalTime_target hfaults] at hmotion
    rw [List.flatMap_cons, runningTotal_cons, ← htravelled.totalTime_target hfaults]
    exact hmotion.append (ih (le_trans hstart hmotion.le))

theorem rising_startKeyframes (first : Step α) :
    Rising 0 (startKeyframes first) (keptFirst first).totalTime := by
  unfold startKeyframes keptFirst
  split_ifs with hdwell
  · have hlater : (0 : α) ≤ 0 + first.dwell := le_add zero_le_zero (le_of_lt hdwell)
    have hend := (refl_of_le hlater).2
    exact Rising.append (.singleton zero_le_zero zero_le_zero) (.singleton hlater hend)
  · exact .singleton zero_le_zero zero_le_zero

/-- The times of the keyframes of a program rise from its start to its duration. -/
theorem Stages.rising {cell : Cell α} {toolpaths : List (List (Target α))} {stepSize : α}
    {count : Nat} {first : Step α} {rest : List (Step α)} {solutions : List (Solution α)}
    {prepared : PreparedProgram α} {journey : Journey α}
    (h : Stages cell toolpaths stepSize count first rest solutions prepared journey) :
    Rising 0 journey.keyframes journey.total := by
  obtain ⟨htotal, _, _⟩ := h.unstamped_first
  rcases timeline_motions h.timeline with ⟨_, rfl⟩ | ⟨_, motions, hmotions, rfl⟩
  · exact .singleton (htotal.symm ▸ zero_le_zero) (htotal.symm ▸ zero_le_zero)
  · have hstart := rising_startKeyframes prepared.first
    exact hstart.append (hmotions.rising hstart.le)

end Toolpath
