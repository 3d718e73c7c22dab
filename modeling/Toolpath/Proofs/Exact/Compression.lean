import Toolpath.Proofs.Exact.Departure
import Toolpath.Proofs.Exact.Timeline

/-!
The keyframes of a motion are those of its substeps after which the duration changes, and the last
one (`keyframeNumbers`). Nothing is lost between two of them. While the duration stays the same, the
times of the substeps are in equal steps (`totalTime_of_steady`), and axis values that are
interpolated between two parts of a motion are those of the parts in between
(`Moment.Amid.interpolateAll`). So the keyframes, played at the time of a substep that was dropped,
ask for the axis values that it was solved with (`Waypoint.ReachedAt.replays`).
-/

set_option autoImplicit false
set_option relaxedAutoImplicit false

namespace Toolpath

/-! ### The substeps that are kept -/

section Turning

variable {α : Type} [Scalar α]

/-- The duration changes after the substep with the number, or every substep is kept. -/
def turnsAfter (everySubstep : Bool) (substeps : List (Substep α)) (number : Nat) : Bool :=
  everySubstep || (substeps.zip substeps.tail)[number]?.any fun pair ↦
    timeTolerance < Scalar.abs (pair.2.duration - pair.1.duration)

/-- The numbers of the turning points among the substeps. -/
def turningNumbers (everySubstep : Bool) (substeps : List (Substep α)) : List Nat :=
  (List.range (substeps.length - 1)).filter (turnsAfter everySubstep substeps)

theorem turningNumbers_cons_cons (everySubstep : Bool) (first second : Substep α)
    (rest : List (Substep α)) :
    turningNumbers everySubstep (first :: second :: rest) =
      (if turnsAfter everySubstep (first :: second :: rest) 0 then [0] else []) ++
        (turningNumbers everySubstep (second :: rest)).map Nat.succ := by
  have hcount : (first :: second :: rest).length - 1 = (second :: rest).length - 1 + 1 := rfl
  rw [turningNumbers, hcount, List.range_succ_eq_map, List.filter_cons, List.filter_map]
  split_ifs <;> rfl

theorem map_some_turningPoints (everySubstep : Bool) (substeps : List (Substep α)) :
    (turningPoints everySubstep substeps).map some =
      (turningNumbers everySubstep substeps).map fun number ↦
        substeps[number]?.map Substep.step := by
  fun_induction turningPoints everySubstep substeps with
  | case1 first second rest hturn ih =>
    have hkeeps : turnsAfter everySubstep (first :: second :: rest) 0 = true := hturn
    rw [turningNumbers_cons_cons, if_pos hkeeps, List.map_cons, ih, List.map_append, List.map_map]
    rfl
  | case2 first second rest hsteady ih =>
    have hdrops : ¬ turnsAfter everySubstep (first :: second :: rest) 0 = true := hsteady
    rw [turningNumbers_cons_cons, if_neg hdrops, List.nil_append, ih, List.map_map]
    rfl
  | case3 substeps hshort =>
    obtain _ | ⟨first, _ | ⟨second, rest⟩⟩ := substeps
    · rfl
    · rfl
    · exact absurd rfl (hshort first second rest)

/-- The numbers of the substeps that become keyframes: the turning points and the last one. -/
def keyframeNumbers (everySubstep : Bool) (substeps : List (Substep α)) : List Nat :=
  turningNumbers everySubstep substeps ++ [substeps.length - 1]

theorem map_some_keyframes (everySubstep : Bool) (initial : List (Substep α)) (final : Substep α) :
    (turningPoints everySubstep (initial ++ [final]) ++ [final.step]).map some =
      (keyframeNumbers everySubstep (initial ++ [final])).map fun number ↦
        (initial ++ [final])[number]?.map Substep.step := by
  have hlast : (initial ++ [final])[(initial ++ [final]).length - 1]? = some final := by
    rw [List.length_append, List.length_singleton, Nat.add_sub_cancel, List.getElem?_concat_length]
  rw [keyframeNumbers, List.map_append, List.map_append, map_some_turningPoints, List.map_singleton,
    List.map_singleton, hlast]
  rfl

theorem length_keyframeNumbers (everySubstep : Bool) (initial : List (Substep α))
    (final : Substep α) : (keyframeNumbers everySubstep (initial ++ [final])).length =
      (turningPoints everySubstep (initial ++ [final]) ++ [final.step]).length := by
  simpa using (congrArg List.length (map_some_keyframes everySubstep initial final)).symm

theorem exists_substep_of_keyframeNumbers {everySubstep : Bool} {initial : List (Substep α)}
    {final : Substep α} {place number : Nat}
    (h : (keyframeNumbers everySubstep (initial ++ [final]))[place]? = some number) :
    ∃ substep, (initial ++ [final])[number]? = some substep ∧
      (turningPoints everySubstep (initial ++ [final]) ++ [final.step])[place]? =
        some substep.step := by
  have hentry := congrArg (·[place]?) (map_some_keyframes everySubstep initial final)
  simp only [List.getElem?_map, h, Option.map_some] at hentry
  obtain ⟨step, hstep, hsame⟩ := Option.map_eq_some_iff.mp hentry
  obtain ⟨substep, hsubstep, rfl⟩ := Option.map_eq_some_iff.mp hsame.symm
  exact ⟨substep, hsubstep, hstep⟩

theorem keyframeNumbers_true {substeps : List (Substep α)} (h : substeps ≠ []) :
    keyframeNumbers true substeps = List.range substeps.length := by
  have hturns : turningNumbers true substeps = List.range (substeps.length - 1) :=
    List.filter_eq_self.mpr fun _ _ ↦ rfl
  rw [keyframeNumbers, hturns, ← List.range_succ, Nat.succ_eq_add_one,
    Nat.sub_add_cancel (List.length_pos_iff.mpr h)]

end Turning

/-- Between neighbours of the numbers that are kept, none is to be kept. -/
theorem isChain_filter_range_concat (keeps : Nat → Bool) (count : Nat) :
    ((List.range count).filter keeps ++ [count]).IsChain fun m k ↦
      m < k ∧ ∀ number, m < number → number < k → keeps number = false := by
  induction count with
  | zero => exact .singleton 0
  | succ count ih =>
    rw [List.range_succ, List.filter_append]
    by_cases hkeeps : keeps count = true
    · rw [List.filter_cons_of_pos hkeeps, List.filter_nil]
      refine List.isChain_append.mpr ⟨ih, .singleton _, fun m hm k hk ↦ ?_⟩
      obtain rfl := Option.some.inj (List.getLast?_concat.symm.trans hm)
      obtain rfl := Option.some.inj hk
      exact ⟨Nat.lt_succ_self _, fun number hlow hhigh ↦
        absurd (Nat.lt_succ_iff.mp hhigh) (Nat.not_le_of_lt hlow)⟩
    · rw [List.filter_cons_of_neg hkeeps, List.filter_nil, List.append_nil]
      obtain ⟨hinitial, _, hlast⟩ := List.isChain_append.mp ih
      refine List.isChain_append.mpr ⟨hinitial, .singleton _, fun m hm k hk ↦ ?_⟩
      obtain rfl := Option.some.inj hk
      obtain ⟨hlt, hdropped⟩ := hlast m hm count rfl
      refine ⟨hlt.trans (Nat.lt_succ_self _), fun number hlow hhigh ↦ ?_⟩
      rcases Nat.lt_succ_iff_lt_or_eq.mp hhigh with hbefore | rfl
      · exact hdropped number hlow hbefore
      · exact Bool.eq_false_of_not_eq_true hkeeps

theorem abs_sub_le_of_turnsAfter {everySubstep : Bool} {substeps : List (Substep ℝ)} {number : Nat}
    {first second : Substep ℝ} (h : turnsAfter everySubstep substeps number = false)
    (hfirst : substeps[number]? = some first) (hsecond : substeps[number + 1]? = some second) :
    |second.duration - first.duration| ≤ timeTolerance := by
  have hpair : (substeps.zip substeps.tail)[number]? = some (first, second) :=
    List.getElem?_zip_eq_some.mpr ⟨hfirst, List.getElem?_tail.trans hsecond⟩
  rw [turnsAfter, hpair, Option.any_some, Bool.or_eq_false_iff, decide_eq_false_iff_not, not_lt,
    Exact.abs_eq] at h
  exact h.2

/-! ### Times -/

namespace Moment

/-- The moment is as far between the parts `first` and `last` of a motion as the part `part`. -/
structure Amid (m : Moment ℝ) (first part last : Nat) : Prop where
  lasts : m.isInstant = false
  share : m.share * ((last : ℝ) - first) = part - first

theorem amid_of_steady (duration : ℝ) {t start stop : ℝ} {first part last : Nat}
    (ht : t = start + ((part : ℝ) - first) * duration)
    (hstop : stop = start + ((last : ℝ) - first) * duration)
    (hspan : Scalar.epsilon ≤ stop - start) :
    (⟨t, start, stop⟩ : Moment ℝ).Amid first part last := by
  have hpos : 0 < stop - start := by
    refine lt_of_lt_of_le ?_ hspan
    norm_num [Scalar.epsilon]
  have hlasts : (⟨t, start, stop⟩ : Moment ℝ).isInstant = false := by
    rw [isInstant, decide_eq_false_iff_not, not_lt, Exact.abs_eq]
    exact hspan.trans (le_abs_self _)
  refine ⟨hlasts, ?_⟩
  have hwhole : ((last : ℝ) - first) * duration = stop - start := (sub_eq_of_eq_add' hstop).symm
  have hpart : ((part : ℝ) - first) * duration = t - start := (sub_eq_of_eq_add' ht).symm
  have hduration : duration ≠ 0 := by
    rintro rfl
    rw [mul_zero] at hwhole
    exact hpos.ne hwhole
  rw [Moment.share, hlasts, if_neg Bool.false_ne_true, div_mul_eq_mul_div, div_eq_iff hpos.ne',
    ← hwhole, ← hpart]
  ring

variable {m : Moment ℝ} {first part last : Nat} (h : m.Amid first part last)

include h

theorem Amid.interpolate (whole : Nat) (a b : ℝ) :
    m.interpolate ((ofParts first whole).interpolate a b) ((ofParts last whole).interpolate a b) =
      (ofParts part whole).interpolate a b := by
  have hshare := h.share
  rw [Moment.share, h.lasts, if_neg Bool.false_ne_true] at hshare
  rw [interpolate_ofParts, interpolate_ofParts, interpolate_ofParts, Moment.interpolate, h.lasts,
    if_neg Bool.false_ne_true]
  linear_combination (b - a) / whole * hshare

/-- Between two parts of a motion the axis values are those of the part in between. -/
theorem Amid.interpolateAll (whole : Nat) (start stop : List ℝ) :
    m.interpolateAll ((ofParts first whole).interpolateAll start stop)
        ((ofParts last whole).interpolateAll start stop) =
      (ofParts part whole).interpolateAll start stop := by
  fun_induction Moment.interpolateAll (ofParts part whole) start stop with
  | case1 => rfl
  | case2 b bs ih => rw [← ih, ← h.interpolate]; rfl
  | case3 a as b bs ih => rw [← ih, ← h.interpolate]; rfl

end Moment

section Times

variable {cell : Cell ℝ} {before arrived : Step ℝ} {divisions : Nat} {substeps : List (Substep ℝ)}
  (hsubsteps : substepsFrom cell before arrived divisions divisions 1 before before.totalTime =
    .ok (substeps, []))
  (hcount : arrived.waypoints.length = cell.groups.length) {m k : Nat} {duration : ℝ}
  (hsteady : ∀ (number : Nat) (substep : Substep ℝ), m < number → number ≤ k →
    substeps[number]? = some substep → substep.duration = duration)
  {first : Substep ℝ} (hfirst : substeps[m]? = some first)

include hsubsteps hcount hsteady hfirst

/-- While the duration stays the same, the times are in equal steps. -/
theorem totalTime_of_steady {number : Nat} (hle : m ≤ number) :
    ∀ {reached : Substep ℝ}, number ≤ k → substeps[number]? = some reached →
      reached.step.totalTime = first.step.totalTime + ((number : ℝ) - m) * duration := by
  induction number, hle using Nat.le_induction with
  | base =>
    intro reached _ hreached
    obtain rfl := Option.some.inj (hfirst.symm.trans hreached)
    rw [sub_self, zero_mul, add_zero]
  | succ number hle ih =>
    intro reached hk hreached
    obtain ⟨last, hlast, hsolved⟩ := exists_solvedFrom hcount hsubsteps hreached
    rw [List.getElem?_cons_succ, List.getElem?_map, Option.map_eq_some_iff] at hlast
    obtain ⟨earlier, hearlier, rfl⟩ := hlast
    rw [hsolved.total, ih (Nat.le_of_succ_le hk) hearlier,
      hsteady _ reached (Nat.lt_succ_of_le hle) hk hreached]
    push_cast
    ring

/-- A substep is finished as far between two others as it is on the way. -/
theorem amid_of_substeps (hlt : m < k) {final : Substep ℝ} (hfinal : substeps[k]? = some final)
    (hspan : Scalar.epsilon ≤ final.step.totalTime - first.step.totalTime) {number : Nat}
    {reached : Substep ℝ} (hlow : m ≤ number) (hhigh : number ≤ k)
    (hreached : substeps[number]? = some reached) :
    (⟨reached.step.totalTime, first.step.totalTime, final.step.totalTime⟩ : Moment ℝ).Amid (m + 1)
      (number + 1) (k + 1) := by
  refine Moment.amid_of_steady duration ?_ ?_ hspan
  · rw [totalTime_of_steady hsubsteps hcount hsteady hfirst hlow hhigh hreached]
    push_cast
    ring
  · rw [totalTime_of_steady hsubsteps hcount hsteady hfirst hlt.le le_rfl hfinal]
    push_cast
    ring

end Times

/-! ### What a substep is solved with -/

/-- The group is asked for what a substep on the way to the target `goal` was solved with, and where
it came to. -/
structure Target.Replays (played : Target ℝ) (group : Group ℝ) (goal : Target ℝ)
    (reached : Waypoint ℝ) : Prop where
  external : played.external = reached.target.external
  stands : reached.solution.joints.drop group.arm.axisCount = reached.target.external
  joint : goal.isLinear = false → played.goal = reached.target.goal ∧
    reached.target.goal = .joints (reached.solution.joints.take group.arm.axisCount)

namespace Waypoint

theorem external_between (waypoint previous : Waypoint ℝ) (armAxes : Nat) (m : Moment ℝ) :
    (waypoint.between previous armAxes m).external =
      m.interpolateAll (previous.solution.joints.drop armAxes)
        (waypoint.solution.joints.drop armAxes) :=
  rfl

/-- A group has come so many parts of the way between two waypoints. -/
structure ReachedAt (reached : Waypoint ℝ) (group : Group ℝ) (start stop : Waypoint ℝ)
    (part whole : Nat) : Prop where
  external : reached.target.external = (Moment.ofParts part whole).interpolateAll
    (start.solution.joints.drop group.arm.axisCount) (stop.solution.joints.drop group.arm.axisCount)
  stands : reached.solution.joints.drop group.arm.axisCount = reached.target.external
  goal : stop.target.isLinear = false →
    reached.target.goal = .joints (reached.solution.joints.take group.arm.axisCount)
  values : stop.target.isLinear = false → reached.solution.joints.take group.arm.axisCount =
    (Moment.ofParts part whole).interpolateAll (start.solution.joints.take group.arm.axisCount)
      (stop.solution.joints.take group.arm.axisCount)

/-- Between two substeps a group is asked for what the substeps in between were solved with. -/
theorem ReachedAt.replays {earlier later reached start stop : Waypoint ℝ} {group : Group ℝ}
    {first part last whole : Nat} (hearlier : earlier.ReachedAt group start stop first whole)
    (hlater : later.ReachedAt group start stop last whole)
    (hreached : reached.ReachedAt group start stop part whole) {m : Moment ℝ}
    (hm : m.Amid first part last) :
    (later.between earlier group.arm.axisCount m).Replays group stop.target reached := by
  refine ⟨?_, hreached.stands, fun hjoint ↦ ⟨?_, hreached.goal hjoint⟩⟩
  · rw [external_between, hearlier.stands, hearlier.external, hlater.stands, hlater.external,
      hm.interpolateAll, hreached.external]
  · have hlinear : later.target.isLinear = false := by rw [Target.isLinear, hlater.goal hjoint]
    rw [goal_between_joint hlinear, hearlier.values hjoint, hlater.values hjoint,
      hm.interpolateAll, hreached.goal hjoint, hreached.values hjoint]

end Waypoint

theorem SolvedFrom.reachedAt {cell : Cell ℝ} {previous next before : Step ℝ}
    {divisions number index : Nat} {substep : Substep ℝ}
    (h : SolvedFrom cell previous next divisions number before substep) (hle : number ≤ divisions)
    (hprevious : previous.Stands cell) (hnext : next.Stands cell) {group : Group ℝ}
    {start stop reached : Waypoint ℝ} (hgroup : cell.groups[index]? = some group)
    (hstart : previous.waypoints[index]? = some start)
    (hstop : next.waypoints[index]? = some stop)
    (hreached : substep.step.waypoints[index]? = some reached) :
    reached.ReachedAt group start stop number divisions := by
  have hadmits := hprevious index group _ hgroup (Step.getElem?_solutions hstart)
  have hstopAdmits := hnext index group _ hgroup (Step.getElem?_solutions hstop)
  have hasked : reached.target = stop.between start group.arm.axisCount
      (.ofParts number divisions) := by
    have htarget := Step.getElem?_targets hreached
    rw [h.targets, Step.getElem?_between hstop hstart,
      Cell.armAxisCount_of_getElem? hgroup] at htarget
    exact (Option.some.inj htarget).symm
  have hexternal : reached.target.external = (Moment.ofParts number divisions).interpolateAll
      (start.solution.joints.drop group.arm.axisCount)
      (stop.solution.joints.drop group.arm.axisCount) := by
    rw [hasked, Waypoint.external_between]
  have hjoints : stop.target.isLinear = false → reached.solution.joints =
      (Moment.ofParts number divisions).interpolateAll start.solution.joints
        stop.solution.joints := by
    intro hjoint
    refine (Cell.solve_asked h.solve hgroup (Step.getElem?_targets hreached)
      (Step.getElem?_solutions hreached) ?_).1
    rw [hasked]
    exact Waypoint.asks_between hjoint hadmits hstopAdmits hle
  refine ⟨hexternal, ?_, fun hjoint ↦ ?_, fun hjoint ↦ ?_⟩
  · obtain ⟨target, coupled, htarget, hsolution⟩ := Cell.exists_solve_of_group h.solve hgroup
    obtain rfl := Option.some.inj ((Step.getElem?_targets hreached).symm.trans htarget)
    rw [Option.some.inj ((Step.getElem?_solutions hreached).symm.trans hsolution),
      Group.drop_joints_solve]
    have hwithin := hadmits.interpolateAll hstopAdmits hle
    have hrow := hwithin.external
    have hlength := hwithin.length_drop
    rw [Moment.drop_interpolateAll, ← hexternal] at hrow hlength
    exact (Group.solveMechanisms_admitted hlength hrow).1
  · rw [hjoints hjoint, Moment.take_interpolateAll, hasked, Waypoint.goal_between_joint hjoint]
  · rw [hjoints hjoint, Moment.take_interpolateAll]

/-! ### Keyframes of a motion -/

/-- Two neighbouring keyframes of the motion to the target `kept`, at the substeps with the numbers
`m` and `k`. -/
structure Spans (cell : Cell ℝ) (kept : Step ℝ) (substeps : List (Substep ℝ)) (m k : Nat)
    (earlier later : Step ℝ) : Prop where
  lt : m < k
  /-- The durations in between hardly differ from one to the next. -/
  steady : ∀ (number : Nat) (first second : Substep ℝ), m < number → number < k →
    substeps[number]? = some first → substeps[number + 1]? = some second →
      |second.duration - first.duration| ≤ timeTolerance
  /-- Where they do not differ at all, the motion played between the keyframes passes through every
  substep at the time of the substep. -/
  passes : ∀ duration : ℝ, (∀ (number : Nat) (substep : Substep ℝ), m < number → number ≤ k →
      substeps[number]? = some substep → substep.duration = duration) →
    Scalar.epsilon ≤ later.totalTime - earlier.totalTime →
    ∀ (number : Nat) (substep : Substep ℝ), m ≤ number → number ≤ k →
      substeps[number]? = some substep →
    ∀ (index : Nat) (group : Group ℝ) (goal : Target ℝ), cell.groups[index]? = some group →
      kept.targets[index]? = some goal → ∃ played reached,
        (later.between earlier cell ⟨substep.step.totalTime, earlier.totalTime,
          later.totalTime⟩)[index]? = some played ∧
        substep.step.waypoints[index]? = some reached ∧ played.Replays group goal reached

/-- The keyframes of the motion to the target `kept` are the substeps with the given numbers, and
the dwell after the last one. -/
structure Compressed (cell : Cell ℝ) (kept : Step ℝ) (substeps : List (Substep ℝ))
    (numbers : List Nat) (keyframes : List (Step ℝ)) : Prop where
  length : keyframes.length = numbers.length + if 0 < kept.dwell then 1 else 0
  held : ∀ (place number : Nat) (keyframe : Step ℝ), numbers[place]? = some number →
    keyframes[place]? = some keyframe → ∃ substep, substeps[number]? = some substep ∧
      keyframe.waypoints = substep.step.waypoints ∧
      keyframe.totalTime = substep.step.totalTime
  last : numbers.getLast? = some (substeps.length - 1)
  dwelt : ∀ keyframe : Step ℝ, keyframes[numbers.length]? = some keyframe → ∃ final,
    substeps.getLast? = some final ∧ keyframe.waypoints = final.step.waypoints ∧
      keyframe.totalTime = final.step.totalTime + kept.dwell
  spans : ∀ (place m k : Nat) (earlier later : Step ℝ), numbers[place]? = some m →
    numbers[place + 1]? = some k → keyframes[place]? = some earlier →
    keyframes[place + 1]? = some later → Spans cell kept substeps m k earlier later
  every : (∃ group ∈ cell.groups, 6 < group.arm.axisCount) →
    numbers = List.range substeps.length

section Motion

variable {cell : Cell ℝ} {before arrived kept : Step ℝ} {divisions : Nat}
  {substeps : List (Substep ℝ)}
  (hsubsteps : substepsFrom cell before arrived divisions divisions 1 before before.totalTime =
    .ok (substeps, []))
  (hcount : arrived.waypoints.length = cell.groups.length)
  (hlength : before.waypoints.length = cell.groups.length) (hbefore : before.Stands cell)
  (harrived : arrived.Stands cell) (hkept : kept.targets = arrived.targets)

include hsubsteps hcount hbefore harrived in
/-- Every substep has a waypoint of every group at its part of the way. -/
theorem exists_reachedAt {number index : Nat} {substep : Substep ℝ} {group : Group ℝ}
    (hsubstep : substeps[number]? = some substep) (hgroup : cell.groups[index]? = some group)
    {start stop : Waypoint ℝ} (hstart : before.waypoints[index]? = some start)
    (hstop : arrived.waypoints[index]? = some stop) :
    ∃ reached, substep.step.waypoints[index]? = some reached ∧
      reached.ReachedAt group start stop (number + 1) divisions := by
  obtain ⟨last, _, hsolved⟩ := exists_solvedFrom hcount hsubsteps hsubstep
  obtain ⟨hindex, _⟩ := List.getElem?_eq_some_iff.mp hgroup
  obtain ⟨hnumber, _⟩ := List.getElem?_eq_some_iff.mp hsubstep
  rw [length_of_substepsFrom hsubsteps] at hnumber
  rw [← (Cell.length_of_solve hsolved.solve).2, Step.length_solutions] at hindex
  have hreached := List.getElem?_eq_getElem hindex
  rw [Nat.add_comm] at hsolved
  exact ⟨_, hreached,
    hsolved.reachedAt hnumber hbefore harrived hgroup hstart hstop hreached⟩

include hsubsteps hcount hlength hbefore harrived hkept in
/-- Two kept substeps between which none is a turning point, kept as keyframes. -/
theorem spans_of_turnsAfter {everySubstep : Bool} {m k : Nat} (hlt : m < k)
    (hdropped : ∀ number, m < number → number < k →
      turnsAfter everySubstep substeps number = false)
    {first final : Substep ℝ} (hfirst : substeps[m]? = some first)
    (hfinal : substeps[k]? = some final) {earlier later : Step ℝ}
    (hearlier : earlier.waypoints = first.step.waypoints)
    (hlater : later.waypoints = final.step.waypoints)
    (hstart : earlier.totalTime = first.step.totalTime)
    (hstop : later.totalTime = final.step.totalTime) :
    Spans cell kept substeps m k earlier later := by
  refine ⟨hlt, fun number a b hlow hhigh ha hb ↦
    abs_sub_le_of_turnsAfter (hdropped number hlow hhigh) ha hb, ?_⟩
  intro duration hsteady hspan number substep hlow hhigh hsubstep index group goal hgroup hgoal
  rw [hstart, hstop] at hspan ⊢
  have hamid := amid_of_substeps hsubsteps hcount hsteady hfirst hlt hfinal hspan hlow hhigh
    hsubstep
  obtain ⟨hindex, _⟩ := List.getElem?_eq_some_iff.mp hgroup
  have hfrom := List.getElem?_eq_getElem (hlength ▸ hindex : index < before.waypoints.length)
  have hto := List.getElem?_eq_getElem (hcount ▸ hindex : index < arrived.waypoints.length)
  have hreach := fun {place : Nat} {reached : Substep ℝ} (h : substeps[place]? = some reached) ↦
    exists_reachedAt hsubsteps hcount hbefore harrived h hgroup hfrom hto
  obtain ⟨begun, hbegun, hbegunAt⟩ := hreach hfirst
  obtain ⟨ended, hended, hendedAt⟩ := hreach hfinal
  obtain ⟨reached, hreached, hreachedAt⟩ := hreach hsubstep
  rw [hkept] at hgoal
  obtain rfl := Option.some.inj ((Step.getElem?_targets hto).symm.trans hgoal)
  refine ⟨_, reached, Step.getElem?_between (hlater ▸ hended) (hearlier ▸ hbegun) cell _, hreached,
    ?_⟩
  rw [Cell.armAxisCount_of_getElem? hgroup]
  exact hbegunAt.replays hendedAt hreachedAt hamid

end Motion

section Keyframes

variable (cell : Cell ℝ) (arrived : Step ℝ) (divisions : Nat) (start : ℝ)
  (warnings : List (Warning ℝ)) (initial : List (Substep ℝ)) (final : Substep ℝ)

/-- But for the time since the keyframe before, keyframes are turning points, the last substep and
its dwell. -/
theorem map_keyframes_completeTravel :
    (completeTravel cell arrived divisions start warnings (initial ++ [final])).keyframes.map
        (fun step ↦ (step.waypoints, step.totalTime)) =
      (turningPoints cell.hasRedundantArm (initial ++ [final]) ++ [final.step]).map
          (fun step ↦ (step.waypoints, step.totalTime)) ++
        if 0 < arrived.dwell then [(final.step.waypoints, final.step.totalTime + arrived.dwell)]
        else [] := by
  rw [keyframes_completeTravel, map_stampDeltas fun _ _ ↦ rfl, List.map_append, dwelling]
  split_ifs <;> rfl

variable {cell arrived divisions start warnings initial final} {place : Nat} {keyframe : Step ℝ}
  (hkeyframe : (completeTravel cell arrived divisions start warnings
    (initial ++ [final])).keyframes[place]? = some keyframe)

include hkeyframe

theorem exists_substep_of_keyframe {number : Nat}
    (hnumber : (keyframeNumbers cell.hasRedundantArm (initial ++ [final]))[place]? = some number) :
    ∃ substep, (initial ++ [final])[number]? = some substep ∧
      keyframe.waypoints = substep.step.waypoints ∧
      keyframe.totalTime = substep.step.totalTime := by
  obtain ⟨substep, hsubstep, hrow⟩ := exists_substep_of_keyframeNumbers hnumber
  obtain ⟨hplace, _⟩ := List.getElem?_eq_some_iff.mp hrow
  have hentry := congrArg (·[place]?)
    (map_keyframes_completeTravel cell arrived divisions start warnings initial final)
  rw [List.getElem?_append_left (by rwa [List.length_map])] at hentry
  simp only [List.getElem?_map, hkeyframe, hrow, Option.map_some] at hentry
  obtain ⟨hwaypoints, htime⟩ := Prod.mk.inj (Option.some.inj hentry)
  exact ⟨substep, hsubstep, hwaypoints, htime⟩

/-- The keyframe after those of the substeps is the end of the dwell. -/
theorem stands_of_dwell
    (hplace : place = (keyframeNumbers cell.hasRedundantArm (initial ++ [final])).length) :
    keyframe.waypoints = final.step.waypoints ∧
      keyframe.totalTime = final.step.totalTime + arrived.dwell := by
  have hentry := congrArg (·[place]?)
    (map_keyframes_completeTravel cell arrived divisions start warnings initial final)
  rw [length_keyframeNumbers] at hplace
  rw [List.getElem?_append_right (by rw [List.length_map, hplace]), List.length_map, ← hplace,
    Nat.sub_self, List.getElem?_map, hkeyframe, Option.map_some] at hentry
  split_ifs at hentry
  · exact Prod.mk.inj (Option.some.inj hentry)
  · cases hentry

end Keyframes

theorem compressed_completeTravel {cell : Cell ℝ} {before arrived kept : Step ℝ} {divisions : Nat}
    {initial : List (Substep ℝ)} {final : Substep ℝ} (warnings : List (Warning ℝ))
    (hsubsteps : substepsFrom cell before arrived divisions divisions 1 before before.totalTime =
      .ok (initial ++ [final], []))
    (hcount : arrived.waypoints.length = cell.groups.length)
    (hlength : before.waypoints.length = cell.groups.length) (hbefore : before.Stands cell)
    (harrived : arrived.Stands cell) (hkept : kept.targets = arrived.targets) :
    Compressed cell kept (initial ++ [final])
      (keyframeNumbers cell.hasRedundantArm (initial ++ [final]))
      (completeTravel cell arrived divisions before.totalTime warnings
        (initial ++ [final])).keyframes := by
  have hdwell := Step.dwell_congr hkept
  constructor
  · have hrow := congrArg List.length (map_keyframes_completeTravel cell arrived divisions
      before.totalTime warnings initial final)
    rw [List.length_map, List.length_append, List.length_map, ← length_keyframeNumbers] at hrow
    rw [hrow, hdwell]
    split_ifs <;> rfl
  · intro place number keyframe hnumber hkeyframe
    exact exists_substep_of_keyframe hkeyframe hnumber
  · exact List.getLast?_concat
  · intro keyframe hkeyframe
    rw [hdwell]
    exact ⟨final, List.getLast?_concat, stands_of_dwell hkeyframe rfl⟩
  · intro place m k earlier later hm hk hearlier hlater
    obtain ⟨first, hfirst, hbegun, hstart⟩ := exists_substep_of_keyframe hearlier hm
    obtain ⟨second, hsecond, hended, hstop⟩ := exists_substep_of_keyframe hlater hk
    obtain ⟨hplace, rfl⟩ := List.getElem?_eq_some_iff.mp hk
    obtain ⟨_, rfl⟩ := List.getElem?_eq_some_iff.mp hm
    have hchain := isChain_filter_range_concat
      (turnsAfter cell.hasRedundantArm (initial ++ [final])) ((initial ++ [final]).length - 1)
    obtain ⟨hlt, hdropped⟩ := List.isChain_iff_getElem.mp hchain place hplace
    exact spans_of_turnsAfter hsubsteps hcount hlength hbefore harrived hkept hlt hdropped hfirst
      hsecond hbegun hended hstart hstop
  · rintro ⟨group, hgroup, hmany⟩
    have hredundant : cell.hasRedundantArm = true :=
      List.any_eq_true.mpr ⟨group, hgroup, decide_eq_true hmany⟩
    rw [hredundant]
    exact keyframeNumbers_true (List.concat_ne_nil final initial)

/-! ### Programs -/

/-- The keyframes of the motion from the target `before` at a place to the target `kept` after it
are some of the substeps that the motion is solved in. -/
def Program.Compresses (program : Program ℝ) (place : Nat) (before kept : Step ℝ) : Prop :=
  ∃ arrived substeps numbers, arrived.task = kept.task ∧ arrived.solutions = kept.solutions ∧
    substepsFrom program.cell before arrived kept.divisions kept.divisions 1 before
      before.totalTime = .ok (substeps, []) ∧
    Compressed program.cell kept substeps numbers
      (program.keyframes.filter (·.index = place + 1))

/-- A motion without faults loses nothing in its keyframes. Between two of them that follow each
other the durations hardly differ, and where they are the same, the keyframes played at the time of
any substep in between ask for the axis values that it was solved with. With an arm of more than six
axes no substep is dropped. -/
theorem compile_compresses_motions {name : String} {cell : Cell ℝ}
    {toolpaths : List (List (Target ℝ))} {stepSize : ℝ} {program : Program ℝ}
    (h : Program.compile name cell toolpaths stepSize = .ok program) {place : Nat}
    {before kept : Step ℝ} (hbefore : program.targets[place]? = some before)
    (hkept : program.targets[place + 1]? = some kept)
    (hnone : ∀ fault ∈ program.faults, fault.target ≠ place + 1) :
    program.Compresses place before kept := by
  obtain ⟨count, first, rest, solutions, prepared, journey, hstages, rfl⟩ := exists_stages_eq h
  obtain ⟨start, next, motion, rfl, hleg⟩ := hstages.exists_leg hkept
  obtain rfl := Option.some.inj (hbefore.symm.trans hleg.start)
  obtain ⟨targets, previous, hbegun⟩ := hstages.exists_solve_leg hleg
  obtain ⟨ended, divisions, initial, final, hsolve, hreached, hsubsteps, rfl⟩ :=
    hleg.travelled.exists_completed (hleg.faults_motion hnone)
  have hended := (Travelled.solutions_arrivedAt hleg.count hsolve).symm
  have htask := task_completeTravel cell (arrivedAt before next ended) divisions before.totalTime
    ((arrivedAt before next ended).endWarnings before) (initial ++ [final])
  have hcompressed := compressed_completeTravel ((arrivedAt before next ended).endWarnings before)
    hsubsteps (Travelled.length_arrivedAt hleg.count hsolve) (hstages.length_waypoints_leg hleg)
    (Step.stands_of_faultless hbegun hleg.faultless)
    (Step.stands_of_faultless (hended ▸ hsolve) hreached) (Prod.mk.inj htask).2
  rw [← hleg.keyframes] at hcompressed
  exact ⟨arrivedAt before next ended, initial ++ [final], _, htask.symm,
    (solutions_completeTravel _ _ _ _ _ _).symm, hsubsteps, hcompressed⟩

/-- The arm has seven axes, so all four substeps are keyframes, and there is one for the pause. -/
theorem compile_compresses_passage : ∃ program before kept,
    Program.compile "Passage" (slideCell 4) (passage 4) 1 = .ok program ∧
    program.targets[0]? = some before ∧ program.targets[1]? = some kept ∧
    (∀ fault ∈ program.faults, fault.target ≠ 1) ∧
    (∀ target ∈ kept.targets, target.isLinear = true) ∧ kept.divisions = 4 ∧
    (program.keyframes.filter (·.index = 1)).length = 5 ∧ program.Compresses 0 before kept := by
  obtain ⟨program, before, kept, hpassage, hdivisions⟩ := exists_passage_four
  have hnone := hpassage.fault_target 1
  have hcompresses :=
    compile_compresses_motions hpassage.compiled hpassage.start hpassage.stop hnone
  refine ⟨program, before, kept, hpassage.compiled, hpassage.start, hpassage.stop, hnone,
    hpassage.isLinear, hdivisions, ?_, hcompresses⟩
  obtain ⟨_, _, _, _, _, _, _, hcell, _⟩ := exists_stages hpassage.compiled
  obtain ⟨arrived, substeps, numbers, _, _, hsubsteps, hcompressed⟩ := hcompresses
  have hnumbers := hcompressed.every
    ⟨slideside 4, hcell ▸ List.mem_singleton_self _, (by decide : 6 < 7)⟩
  have hsteps := length_of_substepsFrom hsubsteps
  rw [hcompressed.length, hnumbers, List.length_range, hsteps, hdivisions, hpassage.dwell,
    if_pos one_pos]

end Toolpath
