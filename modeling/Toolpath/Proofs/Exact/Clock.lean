import Toolpath.Proofs.Exact.Scalar
import Toolpath.Proofs.Substeps

/-!
The clock of a motion over exact numbers. `Clocked` is what solving substep after substep keeps:
every substep belongs to the target of the motion, ends as long after the one before it as the
slowest group takes, and no group takes less than its axes alone would (`clocked_of_substepsFrom`).
Hence the motion takes the sum of the durations (`Clocked.total_eq`) and no less than the sum of
the times of the axes (`Clocked.axisTimes_le`).
-/

set_option autoImplicit false
set_option relaxedAutoImplicit false

namespace Toolpath

/-! ### Paces -/

/-- The time of the slowest limit is the largest of all times. -/
theorem Group.slowest_fst (limits : List (ℝ × SpeedLimit)) :
    (slowest limits).1 = Scalar.maximum (limits.map Prod.fst) := by
  have hfold : ∀ start : ℝ × SpeedLimit,
      (limits.foldl (fun best next ↦ if best.1 < next.1 then next else best) start).1 =
        (limits.map Prod.fst).foldl Scalar.larger start.1 := by
    induction limits with
    | nil => exact fun _ ↦ rfl
    | cons limit rest ih =>
      intro start
      rw [List.foldl_cons, List.map_cons, List.foldl_cons, ih, Exact.larger_eq_max]
      by_cases hlt : start.1 < limit.1
      · rw [if_pos hlt, max_eq_right hlt.le]
      · rw [if_neg hlt, max_eq_left (not_lt.mp hlt)]
  exact hfold (0, .translation)

/-- A group is not faster than its axes. -/
theorem Group.axisTime_le_time (group : Group ℝ) (previous current : Waypoint ℝ)
    (divisions : Nat) :
    (group.pace previous current divisions).axisTime ≤
      (group.pace previous current divisions).time := by
  have htime : (group.pace previous current divisions).time = Scalar.maximum
      ((tcpLimits current.target.speed divisions (current.previousPlane previous) current.plane ++
        group.axisLimits current.target.speed previous.solution.joints
          current.solution.joints).map Prod.fst) := slowest_fst _
  refine Exact.maximum_le_iff.mpr ⟨htime ▸ Exact.maximum_nonneg _, fun time hmem ↦ ?_⟩
  rw [htime, List.map_append]
  exact Exact.le_maximum (List.mem_append_right _ hmem)

theorem Cell.axisTime_le_time {cell : Cell ℝ} {previous current : Step ℝ} {divisions : Nat} :
    ∀ pace ∈ cell.paces previous current divisions, pace.axisTime ≤ pace.time := by
  intro pace hpace
  obtain ⟨⟨group, before, waypoint⟩, _, rfl⟩ := List.mem_map.mp hpace
  exact group.axisTime_le_time before waypoint divisions

/-! ### The running time -/

/-- Substeps of the target with the given number, one after the other from the given time on. -/
inductive Clocked (index : Nat) : ℝ → List (Substep ℝ) → Prop where
  | nil (start : ℝ) : Clocked index start []
  | cons {start : ℝ} {substep : Substep ℝ} {rest : List (Substep ℝ)}
    (hindex : substep.step.index = index)
    (hduration : substep.duration = Scalar.maximum (substep.paces.map Pace.time))
    (hpaces : ∀ pace ∈ substep.paces, pace.axisTime ≤ pace.time)
    (htotal : substep.step.totalTime = start + substep.duration)
    (hrest : Clocked index substep.step.totalTime rest) : Clocked index start (substep :: rest)

theorem clocked_of_substepsFrom {cell : Cell ℝ} {previous next : Step ℝ} {divisions count : Nat} :
    ∀ {number : Nat} {last : Step ℝ} {total : ℝ} {substeps : List (Substep ℝ)}
      {faults : List ProgramFault},
      substepsFrom cell previous next divisions count number last total = .ok (substeps, faults) →
        Clocked next.index total substeps := by
  induction count with
  | zero =>
    intro number last total substeps faults h
    obtain ⟨rfl, _⟩ := Prod.mk.inj (Except.ok.inj h)
    exact .nil total
  | succ count ih =>
    intro number last total substeps faults h
    obtain ⟨_, _, step, rfl, ⟨_, rest, hrest, rfl⟩ | ⟨_, rfl, _⟩⟩ := substepsFrom_succ_cases h
    · exact .cons rfl rfl Cell.axisTime_le_time rfl (ih hrest)
    · exact .nil total

namespace Clocked

variable {index : Nat} {start : ℝ} {substeps : List (Substep ℝ)}

theorem total_eq (h : Clocked index start substeps) :
    (substeps.getLast?.map fun s ↦ s.step.totalTime).getD start =
      start + (substeps.map Substep.duration).sum := by
  induction h with
  | nil start => simp
  | @cons start substep rest _ _ _ htotal _ ih =>
    rw [List.map_cons, List.sum_cons, ← add_assoc, ← htotal, ← ih, List.getLast?_cons,
      Option.map_some, Option.getD_some]
    cases rest.getLast? <;> rfl

theorem index_eq (h : Clocked index start substeps) :
    ∀ substep ∈ substeps, substep.step.index = index := by
  induction h with
  | nil => simp
  | cons hindex _ _ _ _ ih => exact List.forall_mem_cons.mpr ⟨hindex, ih⟩

theorem axisTime_nonneg_and_le (h : Clocked index start substeps) :
    ∀ substep ∈ substeps, 0 ≤ Scalar.maximum (substep.paces.map Pace.axisTime) ∧
      Scalar.maximum (substep.paces.map Pace.axisTime) ≤ substep.duration := by
  induction h with
  | nil => simp
  | @cons start substep rest _ hduration hpaces _ _ ih =>
    refine List.forall_mem_cons.mpr ⟨⟨Exact.maximum_nonneg _, ?_⟩, ih⟩
    rw [hduration, Exact.maximum_le_iff]
    refine ⟨Exact.maximum_nonneg _, fun time htime ↦ ?_⟩
    obtain ⟨pace, hpace, rfl⟩ := List.mem_map.mp htime
    exact (hpaces pace hpace).trans (Exact.le_maximum (List.mem_map_of_mem hpace))

/-- The axes alone would not be slower than the motion. -/
theorem axisTimes_le (h : Clocked index start substeps) :
    0 ≤ (substeps.map fun s ↦ Scalar.maximum (s.paces.map Pace.axisTime)).foldl (· + ·) 0 ∧
    (substeps.map fun s ↦ Scalar.maximum (s.paces.map Pace.axisTime)).foldl (· + ·) 0 ≤
      (substeps.map Substep.duration).sum := by
  have hsum : (substeps.map fun s ↦ Scalar.maximum (s.paces.map Pace.axisTime)).foldl (· + ·) 0 =
      (substeps.map fun s ↦ Scalar.maximum (s.paces.map Pace.axisTime)).sum :=
    List.sum_eq_foldl.symm
  rw [hsum]
  constructor
  · refine List.sum_nonneg fun time htime ↦ ?_
    obtain ⟨substep, hsubstep, rfl⟩ := List.mem_map.mp htime
    exact (h.axisTime_nonneg_and_le substep hsubstep).1
  · exact List.sum_le_sum fun substep hsubstep ↦ (h.axisTime_nonneg_and_le substep hsubstep).2

end Clocked

/-! ### Order in time -/

namespace Step

/-- The second step is not before the first one, neither in time nor by its number. -/
def Precedes (first second : Step ℝ) : Prop :=
  first.totalTime ≤ second.totalTime ∧ first.index ≤ second.index

instance : Trans Precedes Precedes Precedes where
  trans := fun h k ↦ ⟨h.1.trans k.1, h.2.trans k.2⟩

/-- The second step follows the first one and says how long after it. -/
def LeadsTo (first second : Step ℝ) : Prop :=
  first.Precedes second ∧ second.deltaTime = second.totalTime - first.totalTime

end Step

/-- Stamping tells every step the time since the one before it, and keeps whatever holds between
neighbours without regard to that time. -/
theorem isChain_stampDeltas_of {R : Step ℝ → Step ℝ → Prop}
    (hleft : ∀ (a b : Step ℝ) (delta : ℝ), R a b → R { a with deltaTime := delta } b)
    (hright : ∀ (a b : Step ℝ) (delta : ℝ), R a b → R a { b with deltaTime := delta })
    {steps : List (Step ℝ)} :
    ∀ {before : Step ℝ}, (before :: steps).IsChain R →
      (before :: stampDeltas before.totalTime steps).IsChain fun a b ↦
        R a b ∧ b.deltaTime = b.totalTime - a.totalTime := by
  induction steps with
  | nil => intro before _; exact List.isChain_singleton before
  | cons step rest ih =>
    intro before h
    rw [List.isChain_cons_cons] at h
    rw [stampDeltas, List.isChain_cons_cons]
    exact ⟨⟨hright before step _ h.1, rfl⟩, ih (h.2.imp_head (hleft step _ _))⟩

theorem isChain_stampDeltas {steps : List (Step ℝ)} {before : Step ℝ}
    (h : (before :: steps).IsChain Step.Precedes) :
    (before :: stampDeltas before.totalTime steps).IsChain Step.LeadsTo :=
  isChain_stampDeltas_of (fun _ _ _ hle ↦ hle) (fun _ _ _ hle ↦ hle) h

theorem Clocked.totalTime_final {index : Nat} {start : ℝ} {substeps : List (Substep ℝ)}
    {final : Substep ℝ} (h : Clocked index start (substeps ++ [final])) :
    final.step.totalTime = start + ((substeps ++ [final]).map Substep.duration).sum := by
  rw [← h.total_eq, List.getLast?_concat, Option.map_some, Option.getD_some]

theorem Clocked.isChain {index : Nat} {start : ℝ} {substeps : List (Substep ℝ)}
    (h : Clocked index start substeps) :
    ∀ {before : Step ℝ}, before.totalTime = start → before.index ≤ index →
      (before :: substeps.map Substep.step).IsChain Step.Precedes := by
  induction h with
  | nil => intro before _ _; exact List.isChain_singleton before
  | @cons start substep rest hindex hduration _ htotal _ ih =>
    intro before hstart hbefore
    rw [List.map_cons, List.isChain_cons_cons]
    refine ⟨⟨?_, hindex ▸ hbefore⟩, ih rfl hindex.le⟩
    rw [htotal, hstart, hduration]
    exact le_add_of_nonneg_right (Exact.maximum_nonneg _)

end Toolpath
