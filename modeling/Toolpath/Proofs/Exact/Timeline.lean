import Toolpath.Proofs.Exact.Clock
import Toolpath.Proofs.Exact.Passage

/-!
The timeline of a program over exact numbers. `BookedMotion` is what one motion adds to it: keyframes
of its target that lead on from any step at its start, and where it has no faults, a target whose
time is made up of its substeps and its dwell (`Timed`). `Booked` is the same for all motions after a
step, kept from motion to motion. `compile_accounts_time` puts the first target before them: the
keyframes of every program start at zero, never go back and tell the time between them, and every
target without faults is reached at its last keyframe, after the time of all targets up to it.
-/

set_option autoImplicit false
set_option relaxedAutoImplicit false

namespace Toolpath

/-! ### Dwells -/

theorem Step.dwell_congr {step other : Step ℝ} (h : step.targets = other.targets) :
    step.dwell = other.dwell := by
  rw [dwell, dwell, instructions_eq, instructions_eq, h]

/-- The command of some group is, or holds, a wait of so many seconds. -/
def Step.Waits (step : Step ℝ) (seconds : ℝ) : Prop :=
  ∃ waypoint ∈ step.waypoints, ∃ command instruction, waypoint.target.command = some command ∧
    command.Holds (.single instruction) ∧ instruction.action = .wait seconds

theorem Instruction.waitSeconds?_eq_some_iff {instruction : Instruction ℝ} {seconds : ℝ} :
    instruction.waitSeconds? = some seconds ↔ instruction.action = .wait seconds := by
  cases haction : instruction.action <;> simp [waitSeconds?, haction]

theorem Target.mem_instructions_iff {target : Target ℝ} {instruction : Instruction ℝ} :
    instruction ∈ target.instructions ↔
      ∃ command, target.command = some command ∧ command.Holds (.single instruction) := by
  cases hcommand : target.command with
  | none => simp [instructions, hcommand]
  | some command => simp [instructions, hcommand, Command.mem_flatten]

theorem Step.waits_iff {step : Step ℝ} {seconds : ℝ} :
    step.Waits seconds ↔ seconds ∈ step.instructions.filterMap Instruction.waitSeconds? := by
  simp only [List.mem_filterMap, Instruction.waitSeconds?_eq_some_iff, instructions,
    List.mem_flatMap, Target.mem_instructions_iff]
  constructor
  · rintro ⟨waypoint, hwaypoint, command, instruction, hcommand, hholds, haction⟩
    exact ⟨instruction, ⟨waypoint, hwaypoint, command, hcommand, hholds⟩, haction⟩
  · rintro ⟨instruction, ⟨waypoint, hwaypoint, command, hcommand, hholds⟩, haction⟩
    exact ⟨waypoint, hwaypoint, command, instruction, hcommand, hholds, haction⟩

/-- A step dwells as long as its longest wait. -/
theorem Step.isGreatest_dwell (step : Step ℝ) :
    IsGreatest {seconds | seconds = 0 ∨ step.Waits seconds} step.dwell := by
  have hsame : {seconds | seconds = 0 ∨ step.Waits seconds} =
      {seconds | seconds ∈ (0 : ℝ) :: step.instructions.filterMap Instruction.waitSeconds?} :=
    Set.ext fun _ ↦ (or_congr Iff.rfl waits_iff).trans List.mem_cons.symm
  exact hsame ▸ Exact.isGreatest_maximum _

theorem Step.dwell_nonneg (step : Step ℝ) : 0 ≤ step.dwell :=
  Exact.maximum_nonneg _

/-! ### One motion -/

/-- How the time of a kept target is made up after the target before it: of substeps that are all
solved, and the dwell. -/
structure Timed (cell : Cell ℝ) (before kept : Step ℝ) : Prop where
  total_eq : kept.totalTime = before.totalTime + kept.deltaTime
  /-- `arrived` is the target before its time is known. -/
  motion : ∃ arrived substeps, arrived.task = kept.task ∧ arrived.solutions = kept.solutions ∧
    substepsFrom cell before arrived kept.divisions kept.divisions 1 before before.totalTime =
      .ok (substeps, []) ∧
    kept.deltaTime = (substeps.map Substep.duration).sum + kept.dwell
  minTime_nonneg : 0 ≤ kept.minTime
  minTime_le : kept.minTime ≤ kept.deltaTime

/-- What a motion to the target with the given number adds to the timeline. -/
structure BookedMotion (cell : Cell ℝ) (previous : Step ℝ) (index : Nat) (motion : Travel ℝ) : Prop where
  chain : ∀ {before : Step ℝ}, before.totalTime = previous.totalTime → before.index ≤ index →
    (before :: motion.keyframes).IsChain Step.LeadsTo
  index_keyframes : ∀ keyframe ∈ motion.keyframes, keyframe.index = index
  index_faults : ∀ fault ∈ motion.faults, fault.target = index
  total_eq : motion.faults = [] → motion.target.totalTime = motion.total
  last : motion.faults = [] →
    (motion.keyframes.map Step.totalTime).getLast? = some motion.total
  timed : motion.faults = [] → Timed cell previous motion.target

/-- Keyframes taken from a row of steps lead on from the step before the row. -/
theorem isChain_keyframes {before : Step ℝ} {row keyframes : List (Step ℝ)}
    (hrow : (before :: row).IsChain Step.Precedes) (hkeyframes : keyframes.Sublist row) :
    (before :: stampDeltas before.totalTime keyframes).IsChain Step.LeadsTo :=
  isChain_stampDeltas (hrow.sublist (hkeyframes.cons_cons before))

section Complete

variable (cell : Cell ℝ) (arrived : Step ℝ) (divisions : Nat) (start : ℝ)
  (warnings : List (Warning ℝ)) (substeps : List (Substep ℝ)) (final : Substep ℝ)

theorem total_completeTravel :
    (completeTravel cell arrived divisions start warnings (substeps ++ [final])).total =
      final.step.totalTime + arrived.dwell := by
  rw [total_completeTravel_eq_ite]
  split_ifs with hdwell
  · rfl
  · rw [le_antisymm (not_lt.mp hdwell) arrived.dwell_nonneg, add_zero]

theorem deltaTime_completeTravel :
    (completeTravel cell arrived divisions start warnings
      (substeps ++ [final])).target.deltaTime = final.step.totalTime + arrived.dwell - start := by
  rw [← total_completeTravel cell arrived divisions start warnings substeps final]
  rfl

theorem getLast?_keyframes_completeTravel :
    ((completeTravel cell arrived divisions start warnings (substeps ++ [final])).keyframes.map
      Step.totalTime).getLast? = some (final.step.totalTime + arrived.dwell) := by
  rw [keyframes_completeTravel, map_stampDeltas (fun _ _ ↦ rfl), dwelling]
  split_ifs with hdwell
  · simp
  · rw [le_antisymm (not_lt.mp hdwell) arrived.dwell_nonneg, add_zero]
    simp

end Complete

section Booking

variable {cell : Cell ℝ} {stepSize : ℝ} {previous next : Step ℝ} {motion : Travel ℝ}

/-- A dwell continues a row of substeps by one that stands still. -/
theorem isChain_dwelling_of {R : Step ℝ → Step ℝ → Prop} (arrived : Step ℝ) {before : Step ℝ}
    {substeps : List (Substep ℝ)} {final : Substep ℝ}
    (hdwell : ∀ dwell : ℝ, 0 < dwell →
      R final.step { final.step with totalTime := final.step.totalTime + dwell })
    (hrow : (before :: (substeps ++ [final]).map Substep.step).IsChain R) :
    (before :: ((substeps ++ [final]).map Substep.step ++ dwelling arrived final)).IsChain R := by
  rw [← List.cons_append, List.isChain_append]
  refine ⟨hrow, ?_, ?_⟩
  · unfold dwelling
    split_ifs
    · exact List.isChain_singleton _
    · exact List.isChain_nil
  · intro last hlast dwelt hdwelt
    rw [List.map_append, List.map_singleton, ← List.cons_append, List.getLast?_concat,
      Option.mem_some_iff] at hlast
    unfold dwelling at hdwelt
    split_ifs at hdwelt with hpositive
    · obtain rfl := Option.some.inj hdwelt
      subst hlast
      exact hdwell _ hpositive
    · cases hdwelt

theorem isChain_dwelling (arrived : Step ℝ) {index : Nat} {before : Step ℝ}
    {substeps : List (Substep ℝ)} {final : Substep ℝ}
    (hclocked : Clocked index before.totalTime (substeps ++ [final]))
    (hbefore : before.index ≤ index) :
    (before :: ((substeps ++ [final]).map Substep.step ++ dwelling arrived final)).IsChain
      Step.Precedes :=
  isChain_dwelling_of arrived (fun _ hdwell ↦ ⟨le_add_of_nonneg_right hdwell.le, le_rfl⟩)
    (hclocked.isChain rfl hbefore)

/-- A motion that runs to its end takes its substeps and its dwell. -/
theorem timed_completeTravel {arrived : Step ℝ} {divisions : Nat} {initial : List (Substep ℝ)}
    {final : Substep ℝ} (warnings : List (Warning ℝ))
    (hsubsteps : substepsFrom cell previous arrived divisions divisions 1 previous
      previous.totalTime = .ok (initial ++ [final], [])) :
    Timed cell previous (completeTravel cell arrived divisions previous.totalTime warnings
      (initial ++ [final])).target := by
  have hclocked := clocked_of_substepsFrom hsubsteps
  have hfinal := hclocked.totalTime_final
  have htask := task_completeTravel cell arrived divisions previous.totalTime warnings
    (initial ++ [final])
  have hsolutions := solutions_completeTravel cell arrived divisions previous.totalTime warnings
    (initial ++ [final])
  have hdelta := deltaTime_completeTravel cell arrived divisions previous.totalTime warnings
    initial final
  have htotal := total_completeTravel cell arrived divisions previous.totalTime warnings initial
    final
  obtain ⟨hnonneg, hle⟩ := hclocked.axisTimes_le
  have hdwell := Step.dwell_congr (Prod.mk.inj htask).2
  constructor
  · rw [hdelta, add_sub_cancel, ← htotal]
    rfl
  · refine ⟨arrived, _, htask.symm, hsolutions.symm, hsubsteps, ?_⟩
    rw [hdelta, hdwell, hfinal]
    ring
  · exact hnonneg
  · refine hle.trans ?_
    rw [hdelta, hfinal]
    linarith [arrived.dwell_nonneg]

/-- A motion that runs to its end is booked with its substeps and its dwell. -/
theorem bookedMotion_completeTravel {arrived : Step ℝ} {divisions : Nat}
    {substeps : List (Substep ℝ)} (warnings : List (Warning ℝ)) (hdivisions : 1 ≤ divisions)
    (hsubsteps : substepsFrom cell previous arrived divisions divisions 1 previous
      previous.totalTime = .ok (substeps, [])) :
    BookedMotion cell previous arrived.index
      (completeTravel cell arrived divisions previous.totalTime warnings substeps) := by
  have hclocked := clocked_of_substepsFrom hsubsteps
  obtain ⟨initial, final, rfl⟩ : ∃ initial final, substeps = initial ++ [final] := by
    have hlength := length_of_substepsFrom hsubsteps
    rcases List.eq_nil_or_concat substeps with rfl | ⟨initial, final, rfl⟩
    · exact absurd hlength.symm (Nat.ne_of_gt hdivisions)
    · exact ⟨initial, final, List.concat_eq_append⟩
  have hturns := turningPoints_concat_sublist cell.hasRedundantArm initial final
  constructor
  · intro before hbefore hle
    have hrow := isChain_dwelling arrived (hbefore.symm ▸ hclocked) hle
    rw [keyframes_completeTravel, ← hbefore]
    exact isChain_keyframes hrow (hturns.append_right _)
  · rw [keyframes_completeTravel]
    refine forall_mem_stampDeltas (fun _ _ ↦ rfl) fun step hstep ↦ ?_
    rcases List.mem_append.mp hstep with hturn | hdwelt
    · obtain ⟨substep, hsubstep, rfl⟩ := List.mem_map.mp (hturns.subset hturn)
      exact hclocked.index_eq substep hsubstep
    · unfold dwelling at hdwelt
      split_ifs at hdwelt
      · obtain rfl := List.mem_singleton.mp hdwelt
        exact hclocked.index_eq final (by simp)
      · cases hdwelt
  · intro fault hfault
    cases hfault
  · exact fun _ ↦ rfl
  · intro _
    rw [getLast?_keyframes_completeTravel, total_completeTravel]
  · exact fun _ ↦ timed_completeTravel warnings hsubsteps

/-- A motion without keyframes that has faults. -/
theorem bookedMotion_of_faults {index : Nat} {target : Step ℝ} {faults : List ProgramFault}
    {total : ℝ} (hnonempty : faults ≠ []) (hfaults : ∀ fault ∈ faults, fault.target = index) :
    BookedMotion cell previous index ⟨target, [], [], faults, total⟩ where
  chain := fun _ _ ↦ List.isChain_singleton _
  index_keyframes := by simp
  index_faults := hfaults
  total_eq := fun hnil ↦ absurd hnil hnonempty
  last := fun hnil ↦ absurd hnil hnonempty
  timed := fun hnil ↦ absurd hnil hnonempty

theorem Travelled.booked (h : Travelled cell stepSize previous next previous.totalTime motion) :
    BookedMotion cell previous next.index motion := by
  cases h with
  | undefined hundefined =>
    exact bookedMotion_of_faults hundefined fun _ ↦ target_of_mem_undefinedStarts
  | unreached _ hfaults => exact bookedMotion_of_faults hfaults fun _ ↦ target_of_mem_ofStep
  | completed _ _ hdivisions hsubsteps =>
    exact bookedMotion_completeTravel _ (hdivisions ▸ one_le_motionDivisions _ _ _) hsubsteps
  | @stopped solutions _ substeps faults _ _ _ hsubsteps hfaults =>
    have hclocked := clocked_of_substepsFrom hsubsteps
    have hturns : (turningPoints cell.hasRedundantArm substeps).Sublist
        (substeps.map Substep.step) :=
      (turningPoints_sublist _ _).trans (List.dropLast_sublist _)
    constructor
    · intro before hbefore hle
      rw [← hbefore]
      exact isChain_keyframes (hclocked.isChain hbefore hle) hturns
    · refine forall_mem_stampDeltas (fun _ _ ↦ rfl) fun step hstep ↦ ?_
      obtain ⟨substep, hsubstep, rfl⟩ := List.mem_map.mp (hturns.subset hstep)
      exact hclocked.index_eq substep hsubstep
    · exact fun fault hfault ↦ (target_of_mem_substepsFrom hsubsteps hfault).trans rfl
    · exact fun hnil ↦ absurd hnil hfaults
    · exact fun hnil ↦ absurd hnil hfaults
    · exact fun hnil ↦ absurd hnil hfaults

end Booking

/-! ### All motions -/

/-- What the motions after a step add to the timeline. -/
structure BookedJourney (cell : Cell ℝ) (previous : Step ℝ) (journey : Journey ℝ) : Prop where
  chain : ∀ {before : Step ℝ}, before.totalTime = previous.totalTime →
    before.index ≤ previous.index → (before :: journey.keyframes).IsChain Step.LeadsTo
  later : ∀ keyframe ∈ journey.keyframes, previous.index < keyframe.index
  later_targets : ∀ target ∈ journey.targets, previous.index < target.index
  kept : ∀ keyframe ∈ journey.keyframes, ∃ target ∈ journey.targets,
    target.index = keyframe.index
  last : ∀ target ∈ journey.targets, (∀ fault ∈ journey.faults, fault.target ≠ target.index) →
    ((journey.keyframes.filter (·.index = target.index)).map Step.totalTime).getLast? =
      some target.totalTime
  timed : ∀ {place : Nat} {before kept : Step ℝ}, (previous :: journey.targets)[place]? =
    some before → journey.targets[place]? = some kept →
    (∀ fault ∈ journey.faults, fault.target ≠ kept.index) → Timed cell before kept
  sum : ∀ {place : Nat} {kept : Step ℝ}, journey.targets[place]? = some kept →
    (∀ fault ∈ journey.faults, fault.target ≠ kept.index) → kept.totalTime =
      previous.totalTime + ((journey.targets.take (place + 1)).map Step.deltaTime).sum

section Journeys

variable {cell : Cell ℝ} {previous : Step ℝ} {motion : Travel ℝ} {onward : Journey ℝ}

/-- A row is continued by whatever leads on from its last step. -/
theorem isChain_append_of_getLast? {first second : List (Step ℝ)} {last : Step ℝ}
    (hfirst : first.IsChain Step.LeadsTo) (hlast : first.getLast? = some last)
    (hsecond : (last :: second).IsChain Step.LeadsTo) : (first ++ second).IsChain Step.LeadsTo := by
  obtain ⟨hhead, htail⟩ := List.isChain_cons.mp hsecond
  refine List.isChain_append.mpr ⟨hfirst, htail, fun final hfinal next hnext ↦ ?_⟩
  rw [hlast, Option.mem_some_iff] at hfinal
  exact hfinal ▸ hhead next hnext

/-- A motion without faults is booked before the motions after it. -/
theorem BookedMotion.append (hmotion : BookedMotion cell previous (previous.index + 1) motion)
    (hfaults : motion.faults = []) (hindex : motion.target.index = previous.index + 1)
    (honward : BookedJourney cell motion.target onward) :
    BookedJourney cell previous { onward with
      targets := motion.target :: onward.targets
      keyframes := motion.keyframes ++ onward.keyframes
      warnings := motion.warnings ++ onward.warnings } := by
  have htotal := hmotion.total_eq hfaults
  have htimed := hmotion.timed hfaults
  constructor
  · intro before hbefore hle
    have hlast := hmotion.last hfaults
    rw [List.getLast?_map, Option.map_eq_some_iff] at hlast
    obtain ⟨last, hlast, hlastTotal⟩ := hlast
    have hlastIndex := hmotion.index_keyframes last (List.mem_of_getLast? hlast)
    rw [← List.cons_append]
    refine isChain_append_of_getLast? (hmotion.chain hbefore (hle.trans (Nat.le_succ _))) ?_
      (honward.chain (hlastTotal.trans htotal.symm) (hlastIndex.trans hindex.symm).le)
    rw [List.getLast?_cons, hlast, Option.getD_some]
  · intro keyframe hkeyframe
    rcases List.mem_append.mp hkeyframe with hmem | hmem
    · rw [hmotion.index_keyframes keyframe hmem]
      exact Nat.lt_succ_self _
    · exact (hindex ▸ Nat.lt_succ_self _ : previous.index < motion.target.index).trans
        (honward.later keyframe hmem)
  · refine List.forall_mem_cons.mpr ⟨hindex ▸ Nat.lt_succ_self _, fun target htarget ↦ ?_⟩
    exact (hindex ▸ Nat.lt_succ_self _ : previous.index < motion.target.index).trans
      (honward.later_targets target htarget)
  · intro keyframe hkeyframe
    rcases List.mem_append.mp hkeyframe with hmem | hmem
    · exact ⟨motion.target, List.mem_cons_self,
        hindex.trans (hmotion.index_keyframes keyframe hmem).symm⟩
    · obtain ⟨target, htarget, heq⟩ := honward.kept keyframe hmem
      exact ⟨target, List.mem_cons_of_mem _ htarget, heq⟩
  · refine List.forall_mem_cons.mpr ⟨fun _ ↦ ?_, fun target htarget hnone ↦ ?_⟩
    · rw [hindex, filter_index_append hmotion.index_keyframes (hindex ▸ honward.later),
        hmotion.last hfaults, htotal]
    · rw [filter_index_append_of_lt _ hmotion.index_keyframes
        (hindex ▸ honward.later_targets target htarget)]
      exact honward.last target htarget hnone
  · intro place before kept hbefore hkept hnone
    cases place with
    | zero =>
      obtain rfl := Option.some.inj hbefore
      obtain rfl := Option.some.inj hkept
      exact htimed
    | succ place => exact honward.timed hbefore hkept hnone
  · intro place kept hkept hnone
    rw [List.take_succ_cons, List.map_cons, List.sum_cons, ← add_assoc, ← htimed.total_eq]
    cases place with
    | zero =>
      obtain rfl := Option.some.inj hkept
      simp
    | succ place => exact honward.sum hkept hnone

theorem journeyFrom_booked {stepSize : ℝ} {rest : List (Step ℝ)}
    (hcount : ∀ step ∈ rest, step.waypoints.length = cell.groups.length) :
    ∀ {previous : Step ℝ} {journey : Journey ℝ},
      rest.map Step.index = List.range' (previous.index + 1) rest.length →
      journeyFrom cell stepSize previous previous.totalTime rest = .ok journey →
        BookedJourney cell previous journey := by
  induction rest with
  | nil =>
    intro previous journey _ h
    obtain rfl := Except.ok.inj h
    constructor <;> simp
  | cons next rest ih =>
    intro previous journey hindexes h
    rw [List.forall_mem_cons] at hcount
    rw [List.map_cons, List.length_cons, List.range'_succ, List.cons.injEq] at hindexes
    obtain ⟨motion, htravelled, hcases⟩ := journeyFrom_cons_cases h
    have hmotion := htravelled.booked
    have hindex : motion.target.index = previous.index + 1 :=
      (Prod.mk.inj (htravelled.task hcount.1)).1.trans hindexes.1
    rw [hindexes.1] at hmotion
    rcases hcases with ⟨hfaults, onward, honward, rfl⟩ | ⟨hfaults, rfl⟩
    · rw [← hmotion.total_eq hfaults] at honward
      exact hmotion.append hfaults hindex (ih hcount.2 (hindex ▸ hindexes.2) honward)
    · obtain ⟨fault, hfault⟩ := List.exists_mem_of_ne_nil _ hfaults
      -- The only target of this journey is the one with faults.
      have hfaulty : ∀ target ∈ [motion.target], fault.target = target.index := by
        intro target htarget
        rw [List.mem_singleton.mp htarget, hmotion.index_faults fault hfault, hindex]
      constructor
      · exact fun hbefore hle ↦ hmotion.chain hbefore (hle.trans (Nat.le_succ _))
      · intro keyframe hkeyframe
        rw [hmotion.index_keyframes keyframe hkeyframe]
        exact Nat.lt_succ_self _
      · exact fun target htarget ↦
          List.mem_singleton.mp htarget ▸ hindex ▸ Nat.lt_succ_self _
      · exact fun keyframe hkeyframe ↦ ⟨motion.target, List.mem_singleton_self _,
          hindex.trans (hmotion.index_keyframes keyframe hkeyframe).symm⟩
      · exact fun target htarget hnone ↦ absurd (hfaulty target htarget) (hnone fault hfault)
      · exact fun _ hkept hnone ↦
          absurd (hfaulty _ (List.mem_of_getElem? hkept)) (hnone fault hfault)
      · exact fun hkept hnone ↦
          absurd (hfaulty _ (List.mem_of_getElem? hkept)) (hnone fault hfault)

end Journeys

/-! ### Programs -/

/-- How the time of a target of a program is accounted for. -/
structure Accounted (program : Program ℝ) (place : Nat) (kept : Step ℝ) : Prop where
  /-- The target is reached at the last keyframe of its number. -/
  last_keyframe : ((program.keyframes.filter (·.index = place)).map Step.totalTime).getLast? =
    some kept.totalTime
  total_eq_sum : kept.totalTime = ((program.targets.take (place + 1)).map Step.deltaTime).sum
  /-- The dwell is the longest wait of all groups. -/
  dwell : IsGreatest {seconds | seconds = 0 ∨ kept.Waits seconds} kept.dwell
  delta_start : place = 0 → kept.deltaTime = kept.dwell
  /-- A later target takes its substeps, all solved from where the target before was left, and its
  dwell. -/
  delta_motion : ∀ before, 0 < place → program.targets[place - 1]? = some before →
    ∃ arrived substeps, arrived.task = kept.task ∧ arrived.solutions = kept.solutions ∧
      substepsFrom program.cell before arrived kept.divisions kept.divisions 1 before
        before.totalTime = .ok (substeps, []) ∧
      kept.deltaTime = (substeps.map Substep.duration).sum + kept.dwell
  minTime_nonneg : 0 ≤ kept.minTime
  minTime_le : kept.minTime ≤ kept.deltaTime

section Start

variable (first : Step ℝ)

theorem totalTime_keptFirst : (keptFirst first).totalTime = first.dwell := by
  unfold keptFirst
  split_ifs with hdwell
  · exact zero_add _
  · exact le_antisymm first.dwell_nonneg (not_lt.mp hdwell)

theorem deltaTime_keptFirst (hdelta : first.deltaTime = 0) :
    (keptFirst first).deltaTime = first.dwell := by
  unfold keptFirst
  split_ifs with hdwell
  · rfl
  · exact hdelta.trans (le_antisymm first.dwell_nonneg (not_lt.mp hdwell))

theorem minTime_keptFirst : (keptFirst first).minTime = first.minTime := by
  unfold keptFirst
  split_ifs <;> rfl

theorem isChain_startKeyframes : (startKeyframes first).IsChain Step.LeadsTo := by
  rw [startKeyframes, keptFirst]
  split_ifs with hdwell
  · rw [List.isChain_pair]
    refine ⟨⟨?_, le_rfl⟩, ?_⟩
    · rw [zero_add]
      exact hdwell.le
    · rw [zero_add, sub_zero]
  · exact List.isChain_singleton _

end Start

section Programs

variable {cell : Cell ℝ} {toolpaths : List (List (Target ℝ))} {stepSize : ℝ} {count : Nat}
  {first : Step ℝ} {rest : List (Step ℝ)} {solutions : List (Solution ℝ)}
  {prepared : PreparedProgram ℝ} {journey : Journey ℝ}

/-- The times of a timeline, wherever it ends. -/
structure BookedTimeline (cell : Cell ℝ) (journey : Journey ℝ) : Prop where
  nonempty : journey.keyframes ≠ []
  start : ∀ keyframe ∈ journey.keyframes.head?, keyframe.totalTime = 0
  chain : journey.keyframes.IsChain Step.LeadsTo
  kept : ∀ keyframe ∈ journey.keyframes, ∃ target ∈ journey.targets,
    target.index = keyframe.index
  last : ∀ target ∈ journey.targets, (∀ fault ∈ journey.faults, fault.target ≠ target.index) →
    ((journey.keyframes.filter (·.index = target.index)).map Step.totalTime).getLast? =
      some target.totalTime
  first : ∀ target ∈ journey.targets.head?,
    (∀ fault ∈ journey.faults, fault.target ≠ target.index) →
      target.totalTime = target.dwell ∧ target.deltaTime = target.dwell ∧ target.minTime = 0
  timed : ∀ {place : Nat} {before kept : Step ℝ}, journey.targets[place]? = some before →
    journey.targets[place + 1]? = some kept →
    (∀ fault ∈ journey.faults, fault.target ≠ kept.index) → Timed cell before kept
  sum : ∀ {place : Nat} {kept : Step ℝ}, journey.targets[place]? = some kept →
    (∀ fault ∈ journey.faults, fault.target ≠ kept.index) →
      kept.totalTime = ((journey.targets.take (place + 1)).map Step.deltaTime).sum

/-- A first target with faults is all of its timeline. -/
theorem bookedTimeline_of_faults {step : Step ℝ} (htotal : step.totalTime = 0)
    (hfaults : ProgramFault.ofStep step ≠ []) :
    BookedTimeline cell ⟨[step], [step], [], ProgramFault.ofStep step, 0⟩ := by
  obtain ⟨fault, hfault⟩ := List.exists_mem_of_ne_nil _ hfaults
  have hfaulty : ∀ target ∈ [step], fault.target = target.index := by
    intro target htarget
    rw [List.mem_singleton.mp htarget, target_of_mem_ofStep hfault]
  constructor
  · simp
  · simpa using htotal
  · exact List.isChain_singleton _
  · simp
  · exact fun target htarget hnone ↦ absurd (hfaulty target htarget) (hnone fault hfault)
  · exact fun target htarget hnone ↦
      absurd (hfaulty target (List.mem_of_mem_head? htarget)) (hnone fault hfault)
  · exact fun _ hkept hnone ↦
      absurd (hfaulty _ (List.mem_of_getElem? hkept)) (hnone fault hfault)
  · exact fun hkept hnone ↦
      absurd (hfaulty _ (List.mem_of_getElem? hkept)) (hnone fault hfault)

/-- A first target without faults takes its dwell, and the journey goes on from there. -/
theorem BookedJourney.bookedTimeline {step : Step ℝ} {onward : Journey ℝ}
    (hdelta : step.deltaTime = 0) (hmin : step.minTime = 0)
    (h : BookedJourney cell (keptFirst step) onward) :
    BookedTimeline cell { onward with
      targets := keptFirst step :: onward.targets
      keyframes := startKeyframes step ++ onward.keyframes } := by
  obtain ⟨hindex, htargets⟩ := Prod.mk.inj (task_keptFirst step)
  have hdwell := Step.dwell_congr htargets
  have htotal := totalTime_keptFirst step
  have hkeyframes := index_of_mem_startKeyframes step
  have hlast := getLast?_startKeyframes step
  constructor
  · intro hnil
    have hempty := (List.append_eq_nil_iff.mp hnil).1
    rw [hempty] at hlast
    cases hlast
  · unfold startKeyframes
    split_ifs <;> simp
  · exact isChain_append_of_getLast? (isChain_startKeyframes _) hlast (h.chain rfl le_rfl)
  · intro keyframe hkeyframe
    rcases List.mem_append.mp hkeyframe with hmem | hmem
    · exact ⟨_, List.mem_cons_self, hindex.trans (hkeyframes keyframe hmem).symm⟩
    · obtain ⟨target, htarget, heq⟩ := h.kept keyframe hmem
      exact ⟨target, List.mem_cons_of_mem _ htarget, heq⟩
  · refine List.forall_mem_cons.mpr ⟨fun _ ↦ ?_, fun target htarget hnone ↦ ?_⟩
    · rw [hindex, filter_index_append hkeyframes (hindex ▸ h.later), List.getLast?_map, hlast,
        Option.map_some]
    · rw [filter_index_append_of_lt _ hkeyframes (hindex ▸ h.later_targets target htarget)]
      exact h.last target htarget hnone
  · intro target htarget _
    obtain rfl := Option.some.inj htarget
    exact ⟨htotal.trans hdwell.symm, (deltaTime_keptFirst _ hdelta).trans hdwell.symm,
      (minTime_keptFirst _).trans hmin⟩
  · exact fun hbefore hkept hnone ↦ h.timed hbefore hkept hnone
  · intro place kept hkept hnone
    rw [List.take_succ_cons, List.map_cons, List.sum_cons, deltaTime_keptFirst _ hdelta, ← htotal]
    cases place with
    | zero =>
      obtain rfl := Option.some.inj hkept
      simp
    | succ place => exact h.sum hkept hnone

theorem bookedTimeline_of_stages
    (h : Stages cell toolpaths stepSize count first rest solutions prepared journey) :
    BookedTimeline cell journey := by
  obtain ⟨htotal, hdelta, hmin⟩ := h.unstamped_first
  have hindexes := h.index_prepared
  rcases timeline_cases h.timeline with ⟨hfaults, rfl⟩ | ⟨_, onward, honward, rfl⟩
  · exact bookedTimeline_of_faults htotal hfaults
  · have hindex := (Prod.mk.inj (task_keptFirst prepared.first)).1
    have hrest : prepared.rest.map Step.index =
        List.range' ((keptFirst prepared.first).index + 1) prepared.rest.length := by
      have hcount : count = prepared.rest.length + 1 := by
        simpa using (congrArg List.length hindexes).symm
      rw [hcount, List.range_eq_range', List.range'_succ, List.map_cons, List.cons.injEq] at hindexes
      rw [hindex, hindexes.1, hindexes.2]
    exact (journeyFrom_booked (List.forall_mem_cons.mp h.length_waypoints_prepared).2 hrest
      honward).bookedTimeline hdelta hmin

/-- The keyframes of a program start at zero, never go back and tell the time between them, and
belong to targets that are kept. Every target without faults is reached at its last keyframe, when
the times of all targets up to it have passed, and takes its substeps and its dwell. -/
theorem compile_accounts_time {name : String} {program : Program ℝ}
    (h : Program.compile name cell toolpaths stepSize = .ok program) :
    program.keyframes ≠ [] ∧
    (∀ keyframe ∈ program.keyframes.head?, keyframe.totalTime = 0) ∧
    program.keyframes.IsChain Step.LeadsTo ∧
    (∀ keyframe ∈ program.keyframes, ∃ target,
      program.targets[keyframe.index]? = some target ∧ target.index = keyframe.index) ∧
    ∀ place kept, program.targets[place]? = some kept →
      (∀ fault ∈ program.faults, fault.target ≠ place) → Accounted program place kept := by
  obtain ⟨count, first, rest, solutions, prepared, journey, hstages, hcell, htargets, hkeyframes,
    hfaults, _⟩ := exists_stages h
  have hbooked := bookedTimeline_of_stages hstages
  rw [hkeyframes, htargets, hfaults]
  refine ⟨hbooked.nonempty, hbooked.start, hbooked.chain, fun keyframe hkeyframe ↦ ?_,
    fun place kept hkept hnone ↦ ?_⟩
  · obtain ⟨target, htarget, hindex⟩ := hbooked.kept keyframe hkeyframe
    obtain ⟨place, hplace, rfl⟩ := List.getElem_of_mem htarget
    have hentry := List.getElem?_eq_getElem hplace
    rw [← hindex, hstages.index_of_getElem? hentry]
    exact ⟨_, hentry, hstages.index_of_getElem? hentry⟩
  · have hindex := hstages.index_of_getElem? hkept
    rw [← hindex] at hnone
    have hlast := hbooked.last kept (List.mem_of_getElem? hkept) hnone
    have hsum := hbooked.sum hkept hnone
    rw [hindex] at hlast
    cases place with
    | zero =>
      rw [← List.head?_eq_getElem?] at hkept
      obtain ⟨_, hdelta, hmin⟩ := hbooked.first kept hkept hnone
      exact ⟨hkeyframes ▸ hlast, htargets ▸ hsum, kept.isGreatest_dwell, fun _ ↦ hdelta,
        fun _ hpos ↦ absurd hpos (lt_irrefl 0), hmin.ge,
        hmin.trans_le (hdelta ▸ kept.dwell_nonneg)⟩
    | succ place =>
      obtain ⟨hlt, _⟩ := List.getElem?_eq_some_iff.mp hkept
      have hbefore := List.getElem?_eq_getElem (Nat.lt_of_succ_lt hlt)
      have htimed := hbooked.timed hbefore hkept hnone
      refine ⟨hkeyframes ▸ hlast, htargets ▸ hsum, kept.isGreatest_dwell,
        fun hzero ↦ absurd hzero (Nat.succ_ne_zero place), fun before _ heq ↦ ?_,
        htimed.minTime_nonneg, htimed.minTime_le⟩
      rw [htargets, Nat.add_sub_cancel, hbefore] at heq
      obtain rfl := Option.some.inj heq
      exact hcell ▸ htimed.motion

end Programs

/-- The slide is passed in four substeps, and then there is a pause of a second. -/
theorem compile_accounts_passage : ∃ program before kept,
    Program.compile "Passage" (slideCell 4) (passage 4) 1 = .ok program ∧
    program.targets[0]? = some before ∧ program.targets[1]? = some kept ∧
    program.keyframes.IsChain Step.LeadsTo ∧ Accounted program 1 kept ∧
    kept.Waits 1 ∧ kept.dwell = 1 ∧ ∃ arrived substeps,
      substepsFrom program.cell before arrived 4 4 1 before before.totalTime =
        .ok (substeps, []) ∧ substeps.length = 4 ∧
      kept.deltaTime = (substeps.map Substep.duration).sum + 1 := by
  obtain ⟨program, before, kept, hpassage, hfour⟩ := exists_passage_four
  obtain ⟨_, _, hchain, _, haccounts⟩ := compile_accounts_time hpassage.compiled
  have haccounted := haccounts 1 kept hpassage.stop (by simp [hpassage.faultless])
  obtain ⟨arrived, substeps, _, _, hsubsteps, hdelta⟩ :=
    haccounted.delta_motion before zero_lt_one hpassage.start
  rw [hfour] at hsubsteps
  rw [hpassage.dwell] at hdelta
  obtain ⟨waypoint, hwaypoint, hasked⟩ := List.map_eq_singleton_iff.mp hpassage.asked
  refine ⟨program, before, kept, hpassage.compiled, hpassage.start, hpassage.stop, hchain,
    haccounted, ⟨waypoint, hwaypoint ▸ List.mem_singleton_self _, ?_⟩, hpassage.dwell,
    arrived, substeps, hsubsteps, length_of_substepsFrom hsubsteps, hdelta⟩
  rw [hasked]
  exact ⟨_, _, rfl, .itself _, rfl⟩

end Toolpath
