import Toolpath.Proofs.Compilation
import Toolpath.Proofs.Substeps

/-!
A program motion by motion. `Travelled.exists_completed` and `Travelled.exists_solvedFrom` say what
one motion leaves in the program: without faults it runs through all of its substeps, and every
keyframe of it is one of them but for the time. `Motions` are the motions of a journey, each from
where the one before it arrived, the last one alone with faults. `exists_motion` finds the motion to
a kept target together with the keyframes of its number.
-/

set_option autoImplicit false
set_option relaxedAutoImplicit false

namespace Toolpath

variable {α : Type} [Scalar α]

/-! ### One motion -/

theorem foldl_max_le_iff {counts : List Nat} {bound : Nat} :
    ∀ {start : Nat}, counts.foldl max start ≤ bound ↔
      start ≤ bound ∧ ∀ count ∈ counts, count ≤ bound := by
  induction counts with
  | nil => simp
  | cons count rest ih =>
    intro start
    rw [List.foldl_cons, ih, max_le_iff, List.forall_mem_cons, and_assoc]

theorem one_le_motionDivisions (next previous : Step α) (stepSize : α) :
    1 ≤ next.motionDivisions previous stepSize :=
  (foldl_max_le_iff.mp le_rfl).1

/-- The steps after a motion that ends with the substep `final`: its dwell, if it has any. -/
def dwelling (arrived : Step α) (final : Substep α) : List (Step α) :=
  if 0 < arrived.dwell then
    [{ final.step with totalTime := final.step.totalTime + arrived.dwell }]
  else []

/-- The dwell is one more keyframe at the end of the motion. -/
theorem eq_of_mem_dwelling {arrived : Step α} {final : Substep α} {step : Step α}
    (h : step ∈ dwelling arrived final) :
    step = { final.step with totalTime := final.step.totalTime + arrived.dwell } := by
  unfold dwelling at h
  split_ifs at h
  · exact List.mem_singleton.mp h
  · cases h

theorem keyframes_completeTravel (cell : Cell α) (arrived : Step α) (divisions : Nat) (start : α)
    (warnings : List (Warning α)) (substeps : List (Substep α)) (final : Substep α) :
    (completeTravel cell arrived divisions start warnings (substeps ++ [final])).keyframes =
      stampDeltas start (turningPoints cell.hasRedundantArm (substeps ++ [final]) ++
        [final.step] ++ dwelling arrived final) := by
  rw [completeTravel, List.getLast?_concat, Option.map_some, Option.getD_some, dwelling]
  split_ifs <;> rfl

/-- The motion ends after its dwell. -/
theorem total_completeTravel_eq_ite (cell : Cell α) (arrived : Step α) (divisions : Nat) (start : α)
    (warnings : List (Warning α)) (substeps : List (Substep α)) (final : Substep α) :
    (completeTravel cell arrived divisions start warnings (substeps ++ [final])).total =
      if 0 < arrived.dwell then final.step.totalTime + arrived.dwell
      else final.step.totalTime := by
  rw [completeTravel, List.getLast?_concat, Option.map_some, Option.getD_some]

/-- The last keyframe of a motion without faults is its last substep, perhaps after its dwell. -/
theorem exists_getLast?_completeTravel (cell : Cell α) (arrived : Step α) (divisions : Nat)
    (start : α) (warnings : List (Warning α)) (substeps : List (Substep α)) (final : Substep α) :
    ∃ keyframe, (completeTravel cell arrived divisions start warnings
      (substeps ++ [final])).keyframes.getLast? = some keyframe ∧
        keyframe.solutions = final.step.solutions := by
  have hrow : (turningPoints cell.hasRedundantArm (substeps ++ [final]) ++ [final.step] ++
      dwelling arrived final).getLast?.map Step.solutions = some final.step.solutions := by
    unfold dwelling
    split_ifs
    · rw [List.getLast?_concat]
      rfl
    · rw [List.append_nil, List.getLast?_concat]
      rfl
  rw [keyframes_completeTravel, ← Option.map_eq_some_iff, ← List.getLast?_map,
    map_stampDeltas fun _ _ ↦ rfl, List.getLast?_map, hrow]

/-- The keyframes before they are stamped are substeps, the last one perhaps once more after its
dwell. -/
theorem exists_substep_of_mem_row {everySubstep : Bool} {arrived : Step α}
    {substeps : List (Substep α)} {final : Substep α} {step : Step α}
    (h : step ∈ turningPoints everySubstep (substeps ++ [final]) ++ [final.step] ++
      dwelling arrived final) :
    ∃ substep ∈ substeps ++ [final], step.index = substep.step.index ∧
      step.waypoints = substep.step.waypoints := by
  rcases List.mem_append.mp h with hturn | hdwelt
  · obtain ⟨substep, hsubstep, rfl⟩ := List.mem_map.mp
      ((turningPoints_concat_sublist everySubstep substeps final).subset hturn)
    exact ⟨substep, hsubstep, rfl, rfl⟩
  · rw [eq_of_mem_dwelling hdwelt]
    exact ⟨final, by simp, rfl, rfl⟩

/-- A stamped step is one of those that were stamped. -/
theorem exists_of_mem_stampDeltas {steps : List (Step α)} {start : α} {keyframe : Step α}
    (h : keyframe ∈ stampDeltas start steps) :
    ∃ step ∈ steps, keyframe.index = step.index ∧ keyframe.waypoints = step.waypoints := by
  have hmem := List.mem_map_of_mem (f := fun step ↦ (step.index, step.waypoints)) h
  rw [map_stampDeltas fun _ _ ↦ rfl] at hmem
  obtain ⟨step, hstep, heq⟩ := List.mem_map.mp hmem
  obtain ⟨hindex, hwaypoints⟩ := Prod.mk.inj heq
  exact ⟨step, hstep, hindex.symm, hwaypoints.symm⟩

/-- The keyframes of a motion that runs to its end are substeps of it. -/
theorem exists_substep_of_mem_completeTravel {cell : Cell α} {arrived : Step α} {divisions : Nat}
    {start : α} {warnings : List (Warning α)} {substeps : List (Substep α)} {final : Substep α}
    {keyframe : Step α} (h : keyframe ∈ (completeTravel cell arrived divisions start warnings
      (substeps ++ [final])).keyframes) :
    ∃ substep ∈ substeps ++ [final], keyframe.index = substep.step.index ∧
      keyframe.waypoints = substep.step.waypoints := by
  rw [keyframes_completeTravel] at h
  obtain ⟨step, hstep, hindex, hwaypoints⟩ := exists_of_mem_stampDeltas h
  obtain ⟨substep, hsubstep, hstepIndex, hstepWaypoints⟩ := exists_substep_of_mem_row hstep
  exact ⟨substep, hsubstep, hindex.trans hstepIndex, hwaypoints.trans hstepWaypoints⟩

namespace Travelled

variable {cell : Cell α} {stepSize : α} {previous next : Step α} {motion : Travel α}

/-- A motion without faults runs through all of its substeps, as many as the longest straight way
needs. -/
theorem exists_divided
    (h : Travelled cell stepSize previous next previous.totalTime motion)
    (hfaults : motion.faults = []) :
    ∃ solutions divisions initial final,
      cell.solve (next.endTargets previous) (some previous.joints) = .ok solutions ∧
      (arrivedAt previous next solutions).faults = [] ∧
      divisions = (arrivedAt previous next solutions).motionDivisions previous stepSize ∧
      substepsFrom cell previous (arrivedAt previous next solutions) divisions divisions 1 previous
        previous.totalTime = .ok (initial ++ [final], []) ∧
      motion = completeTravel cell (arrivedAt previous next solutions) divisions
        previous.totalTime ((arrivedAt previous next solutions).endWarnings previous)
        (initial ++ [final]) := by
  cases h with
  | undefined hundefined => exact absurd hfaults hundefined
  | unreached _ hunreached => exact absurd hfaults hunreached
  | stopped _ _ _ _ hstopped => exact absurd hfaults hstopped
  | @completed solutions divisions substeps hsolve hreached hdivisions hsubsteps =>
    have hlength := length_of_substepsFrom hsubsteps
    have hpos : 1 ≤ divisions := hdivisions ▸ one_le_motionDivisions _ _ _
    rcases List.eq_nil_or_concat substeps with rfl | ⟨initial, final, rfl⟩
    · exact absurd hlength.symm (Nat.ne_of_gt hpos)
    · rw [List.concat_eq_append] at hsubsteps ⊢
      exact ⟨solutions, divisions, initial, final, hsolve, ofStep_eq_nil_iff.mp hreached, hdivisions,
        hsubsteps, rfl⟩

/-- A motion without faults runs through all of its substeps, of which there is a last one. -/
theorem exists_completed
    (h : Travelled cell stepSize previous next previous.totalTime motion)
    (hfaults : motion.faults = []) :
    ∃ solutions divisions initial final,
      cell.solve (next.endTargets previous) (some previous.joints) = .ok solutions ∧
      (arrivedAt previous next solutions).faults = [] ∧
      substepsFrom cell previous (arrivedAt previous next solutions) divisions divisions 1 previous
        previous.totalTime = .ok (initial ++ [final], []) ∧
      motion = completeTravel cell (arrivedAt previous next solutions) divisions
        previous.totalTime ((arrivedAt previous next solutions).endWarnings previous)
        (initial ++ [final]) := by
  obtain ⟨solutions, divisions, initial, final, hsolve, hreached, _, hsubsteps, hmotion⟩ :=
    h.exists_divided hfaults
  exact ⟨solutions, divisions, initial, final, hsolve, hreached, hsubsteps, hmotion⟩

theorem keyframes_ne_nil (h : Travelled cell stepSize previous next previous.totalTime motion)
    (hfaults : motion.faults = []) : motion.keyframes ≠ [] := by
  obtain ⟨solutions, divisions, initial, final, _, _, _, rfl⟩ := h.exists_completed hfaults
  obtain ⟨keyframe, hlast, _⟩ := exists_getLast?_completeTravel cell
    (arrivedAt previous next solutions) divisions previous.totalTime
    ((arrivedAt previous next solutions).endWarnings previous) initial final
  exact List.ne_nil_of_mem (List.mem_of_getLast? hlast)

theorem faults_target (h : Travelled cell stepSize previous next previous.totalTime motion)
    (hfaults : motion.faults = []) : motion.target.faults = [] := by
  obtain ⟨solutions, divisions, initial, final, _, hreached, _, rfl⟩ := h.exists_completed hfaults
  rw [Step.faults_eq, solutions_completeTravel, ← Step.faults_eq, hreached]

theorem totalTime_target (h : Travelled cell stepSize previous next previous.totalTime motion)
    (hfaults : motion.faults = []) : motion.target.totalTime = motion.total := by
  obtain ⟨_, _, _, _, _, _, _, rfl⟩ := h.exists_completed hfaults
  rfl

theorem length_arrivedAt {solutions : List (Solution α)}
    (hcount : next.waypoints.length = cell.groups.length)
    (hsolve : cell.solve (next.endTargets previous) (some previous.joints) = .ok solutions) :
    (arrivedAt previous next solutions).waypoints.length = cell.groups.length := by
  have hsolutions := (Cell.length_of_solve hsolve).2.trans hcount.symm
  rw [arrivedAt, Step.length_waypoints_withSolutions _ hsolutions, hcount]

theorem targets_arrivedAt {solutions : List (Solution α)}
    (hcount : next.waypoints.length = cell.groups.length)
    (hsolve : cell.solve (next.endTargets previous) (some previous.joints) = .ok solutions) :
    (arrivedAt previous next solutions).targets = next.targets :=
  Step.targets_withSolutions _ ((Cell.length_of_solve hsolve).2.trans hcount.symm)

theorem solutions_arrivedAt {solutions : List (Solution α)}
    (hcount : next.waypoints.length = cell.groups.length)
    (hsolve : cell.solve (next.endTargets previous) (some previous.joints) = .ok solutions) :
    (arrivedAt previous next solutions).solutions = solutions :=
  Step.solutions_withSolutions _ ((Cell.length_of_solve hsolve).2.trans hcount.symm)

/-- The solutions of a target that was reached are those of the end of its motion. -/
theorem solve_target (h : Travelled cell stepSize previous next previous.totalTime motion)
    (hfaults : motion.faults = []) (hcount : next.waypoints.length = cell.groups.length) :
    cell.solve (next.endTargets previous) (some previous.joints) = .ok motion.target.solutions := by
  obtain ⟨solutions, divisions, initial, final, hsolve, _, _, rfl⟩ := h.exists_completed hfaults
  rw [solutions_completeTravel, solutions_arrivedAt hcount hsolve, hsolve]

/-- The keyframes of a motion are substeps of it that were solved without faults. -/
theorem exists_solvedFrom (h : Travelled cell stepSize previous next previous.totalTime motion)
    (hcount : next.waypoints.length = cell.groups.length) {keyframe : Step α}
    (hkeyframe : keyframe ∈ motion.keyframes) :
    ∃ arrived divisions number before substep, arrived.index = next.index ∧
      SolvedFrom cell previous arrived divisions number before substep ∧
      keyframe.index = substep.step.index ∧ keyframe.waypoints = substep.step.waypoints := by
  by_cases hfaults : motion.faults = []
  · obtain ⟨solutions, divisions, initial, final, hsolve, _, hsubsteps, rfl⟩ :=
      h.exists_completed hfaults
    obtain ⟨substep, hsubstep, hindex, hwaypoints⟩ :=
      exists_substep_of_mem_completeTravel hkeyframe
    obtain ⟨place, before, hsolved⟩ :=
      exists_solvedFrom_of_mem (length_arrivedAt hcount hsolve) hsubsteps hsubstep
    exact ⟨arrivedAt previous next solutions, _, _, before, substep, rfl, hsolved, hindex,
      hwaypoints⟩
  · cases h with
    | undefined => cases hkeyframe
    | unreached => cases hkeyframe
    | completed => exact absurd rfl hfaults
    | @stopped solutions _ _ _ hsolve _ _ hsubsteps _ =>
      obtain ⟨step, hstep, hindex, hwaypoints⟩ := exists_of_mem_stampDeltas hkeyframe
      have hmem := (List.dropLast_sublist _).subset ((turningPoints_sublist _ _).subset hstep)
      obtain ⟨substep, hsubstep, rfl⟩ := List.mem_map.mp hmem
      obtain ⟨place, before, hsolved⟩ :=
        exists_solvedFrom_of_mem (length_arrivedAt hcount hsolve) hsubsteps hsubstep
      exact ⟨arrivedAt previous next solutions, _, _, before, substep, rfl, hsolved, hindex,
        hwaypoints⟩

theorem index_keyframes (h : Travelled cell stepSize previous next previous.totalTime motion)
    (hcount : next.waypoints.length = cell.groups.length) :
    ∀ keyframe ∈ motion.keyframes, keyframe.index = next.index := by
  intro keyframe hkeyframe
  obtain ⟨_, _, _, _, substep, harrived, hsolved, hindex, _⟩ := h.exists_solvedFrom hcount hkeyframe
  rw [hindex, hsolved.index, harrived]

theorem faults_keyframes (h : Travelled cell stepSize previous next previous.totalTime motion)
    (hcount : next.waypoints.length = cell.groups.length) :
    ∀ keyframe ∈ motion.keyframes, keyframe.faults = [] := by
  intro keyframe hkeyframe
  obtain ⟨_, _, _, _, substep, _, hsolved, _, hwaypoints⟩ := h.exists_solvedFrom hcount hkeyframe
  rw [Step.faults, hwaypoints]
  exact hsolved.faultless

/-- The faults of a motion name its target and a group of the cell. -/
theorem names_of_mem_faults (h : Travelled cell stepSize previous next previous.totalTime motion)
    (hcount : next.waypoints.length = cell.groups.length) {fault : ProgramFault}
    (hfault : fault ∈ motion.faults) :
    fault.target = next.index ∧ fault.group < cell.groups.length := by
  cases h with
  | undefined =>
    rw [← hcount]
    exact ⟨target_of_mem_undefinedStarts hfault, group_lt_of_mem_undefinedStarts hfault⟩
  | unreached hsolve =>
    rw [← length_arrivedAt hcount hsolve]
    exact ⟨(target_of_mem_ofStep hfault).trans rfl, group_lt_of_mem_ofStep hfault⟩
  | completed => cases hfault
  | stopped hsolve _ _ hsubsteps =>
    exact ⟨(target_of_mem_substepsFrom hsubsteps hfault).trans rfl,
      group_lt_of_mem_substepsFrom (length_arrivedAt hcount hsolve) hsubsteps hfault⟩

end Travelled

/-! ### All motions -/

/-- The motions from a step towards the steps after it: each one starts where the one before it
arrived, and the first one with faults is the last. -/
inductive Motions (cell : Cell α) (stepSize : α) :
    Step α → List (Step α) → List (Travel α) → Prop where
  | done (previous : Step α) : Motions cell stepSize previous [] []
  | stopped {previous next : Step α} (rest : List (Step α)) {motion : Travel α}
    (htravelled : Travelled cell stepSize previous next previous.totalTime motion)
    (hfaults : motion.faults ≠ []) : Motions cell stepSize previous (next :: rest) [motion]
  | onward {previous next : Step α} {rest : List (Step α)} {motion : Travel α}
    {motions : List (Travel α)}
    (htravelled : Travelled cell stepSize previous next previous.totalTime motion)
    (hfaults : motion.faults = []) (hrest : Motions cell stepSize motion.target rest motions) :
    Motions cell stepSize previous (next :: rest) (motion :: motions)

omit [Scalar α] in
/-- The running time after motions that start at the time `total`. -/
def runningTotal (total : α) (motions : List (Travel α)) : α :=
  (motions.getLast?.map Travel.total).getD total

omit [Scalar α] in
@[simp] theorem runningTotal_cons (total : α) (motion : Travel α) (motions : List (Travel α)) :
    runningTotal total (motion :: motions) = runningTotal motion.total motions := by
  rw [runningTotal, runningTotal, List.getLast?_cons]
  cases motions.getLast? <;> rfl

omit [Scalar α] in
/-- What motions leave in the program that they start at the running time `total`. -/
def Journey.ofMotions (total : α) (motions : List (Travel α)) : Journey α where
  targets := motions.map Travel.target
  keyframes := motions.flatMap Travel.keyframes
  warnings := motions.flatMap Travel.warnings
  faults := motions.flatMap Travel.faults
  total := runningTotal total motions

theorem exists_motions {cell : Cell α} {stepSize : α} {rest : List (Step α)} :
    ∀ {previous : Step α} {journey : Journey α},
      journeyFrom cell stepSize previous previous.totalTime rest = .ok journey →
        ∃ motions, Motions cell stepSize previous rest motions ∧
          journey = Journey.ofMotions previous.totalTime motions := by
  induction rest with
  | nil =>
    intro previous journey h
    exact ⟨[], .done previous, (Except.ok.inj h).symm⟩
  | cons next rest ih =>
    intro previous journey h
    obtain ⟨motion, htravelled, ⟨hfaults, onward, honward, rfl⟩ | ⟨hfaults, rfl⟩⟩ :=
      journeyFrom_cons_cases h
    · rw [← htravelled.totalTime_target hfaults] at honward
      obtain ⟨motions, hmotions, rfl⟩ := ih honward
      refine ⟨motion :: motions, .onward htravelled hfaults hmotions, ?_⟩
      simp [Journey.ofMotions, hfaults, htravelled.totalTime_target hfaults]
    · exact ⟨[motion], .stopped rest htravelled hfaults, by simp [Journey.ofMotions, runningTotal]⟩

namespace Motions

variable {cell : Cell α} {stepSize : α} {previous : Step α} {rest : List (Step α)}
  {motions : List (Travel α)}

theorem exists_travelled (h : Motions cell stepSize previous rest motions) {motion : Travel α} :
    ∀ {place : Nat}, motions[place]? = some motion →
      ∃ before next, (previous :: motions.map Travel.target)[place]? = some before ∧
        rest[place]? = some next ∧
        Travelled cell stepSize before next before.totalTime motion := by
  induction h with
  | done => intro place hmotion; cases hmotion
  | @stopped previous next rest last htravelled _ =>
    intro place hmotion
    cases place with
    | zero =>
      obtain rfl := Option.some.inj hmotion
      exact ⟨previous, next, rfl, rfl, htravelled⟩
    | succ place => cases hmotion
  | @onward previous next rest first motions htravelled _ _ ih =>
    intro place hmotion
    cases place with
    | zero =>
      obtain rfl := Option.some.inj hmotion
      exact ⟨previous, next, rfl, rfl, htravelled⟩
    | succ place => exact ih hmotion

/-- Only the last motion can have faults. -/
theorem faults_of_lt (h : Motions cell stepSize previous rest motions) {motion : Travel α} :
    ∀ {place : Nat}, motions[place]? = some motion → place + 1 < motions.length →
      motion.faults = [] := by
  induction h with
  | done => intro place hmotion; cases hmotion
  | stopped => intro place _ hlt; exact absurd hlt (by simp)
  | onward _ hfaults _ ih =>
    intro place hmotion hlt
    cases place with
    | zero => exact Option.some.inj hmotion ▸ hfaults
    | succ place => exact ih hmotion (Nat.lt_of_succ_lt_succ hlt)

/-- Whatever a motion starts from has no faults. -/
theorem faults_start (h : Motions cell stepSize previous rest motions) {before : Step α}
    {motion : Travel α} (hprevious : previous.faults = []) :
    ∀ {place : Nat}, (previous :: motions.map Travel.target)[place]? = some before →
      motions[place]? = some motion → before.faults = [] := by
  induction h with
  | done => intro place _ hmotion; cases hmotion
  | stopped =>
    intro place hbefore hmotion
    cases place with
    | zero => exact Option.some.inj hbefore ▸ hprevious
    | succ place => cases hmotion
  | onward htravelled hfaults _ ih =>
    intro place hbefore hmotion
    cases place with
    | zero => exact Option.some.inj hbefore ▸ hprevious
    | succ place => exact ih (htravelled.faults_target hfaults) hbefore hmotion

/-- Whatever a motion starts from was solved, as the start of all motions or as the end of one. -/
theorem solved_start (h : Motions cell stepSize previous rest motions)
    (hcount : ∀ step ∈ rest, step.waypoints.length = cell.groups.length) {before : Step α}
    {motion : Travel α} :
    ∀ {place : Nat}, (previous :: motions.map Travel.target)[place]? = some before →
      motions[place]? = some motion →
        before.solutions = previous.solutions ∧ before.targets = previous.targets ∨
        ∃ earlier, ∃ next ∈ rest, before.targets = next.targets ∧
          cell.solve (next.endTargets earlier) (some earlier.joints) = .ok before.solutions := by
  induction h with
  | done => intro place _ hmotion; cases hmotion
  | stopped =>
    intro place hbefore hmotion
    cases place with
    | zero => exact .inl (Option.some.inj hbefore ▸ ⟨rfl, rfl⟩)
    | succ place => cases hmotion
  | @onward previous next rest first motions htravelled hfaults _ ih =>
    intro place hbefore hmotion
    rw [List.forall_mem_cons] at hcount
    cases place with
    | zero => exact .inl (Option.some.inj hbefore ▸ ⟨rfl, rfl⟩)
    | succ place =>
      right
      rcases ih hcount.2 hbefore hmotion with
        ⟨hsame, htargets⟩ | ⟨earlier, later, hlater, htargets, hsolve⟩
      · exact ⟨previous, next, List.mem_cons_self,
          htargets.trans (Prod.mk.inj (htravelled.task hcount.1)).2,
          hsame ▸ htravelled.solve_target hfaults hcount.1⟩
      · exact ⟨earlier, later, List.mem_cons_of_mem _ hlater, htargets, hsolve⟩

theorem length_le (h : Motions cell stepSize previous rest motions) :
    motions.length ≤ rest.length := by
  induction h with
  | done => exact le_rfl
  | stopped => simp
  | onward _ _ _ ih => exact Nat.succ_le_succ ih

/-- Motions without faults go through all steps. -/
theorem length_eq (h : Motions cell stepSize previous rest motions)
    (hfaults : motions.flatMap Travel.faults = []) : motions.length = rest.length := by
  induction h with
  | done => rfl
  | stopped _ _ hstopped =>
    rw [List.flatMap_singleton] at hfaults
    exact absurd hfaults hstopped
  | onward _ _ _ ih =>
    rw [List.flatMap_cons, List.append_eq_nil_iff] at hfaults
    rw [List.length_cons, List.length_cons, ih hfaults.2]

end Motions

/-! ### Keyframes by number -/

section Numbers

omit [Scalar α]

/-- Keyframes of other targets do not count for the last keyframe of a target. -/
theorem filter_index_append {index : Nat} {first second : List (Step α)}
    (hfirst : ∀ keyframe ∈ first, keyframe.index = index)
    (hsecond : ∀ keyframe ∈ second, index < keyframe.index) :
    (first ++ second).filter (·.index = index) = first := by
  rw [List.filter_append, List.filter_eq_self.mpr fun keyframe hkeyframe ↦ by
      simpa using hfirst keyframe hkeyframe,
    List.filter_eq_nil_iff.mpr fun keyframe hkeyframe ↦ by
      simpa using (hsecond keyframe hkeyframe).ne', List.append_nil]

theorem filter_index_append_of_lt {index later : Nat} {first : List (Step α)}
    (second : List (Step α)) (hfirst : ∀ keyframe ∈ first, keyframe.index = index)
    (hlater : index < later) :
    (first ++ second).filter (·.index = later) = second.filter (·.index = later) := by
  rw [List.filter_append, List.filter_eq_nil_iff.mpr fun keyframe hkeyframe ↦ by
      simpa [hfirst keyframe hkeyframe] using hlater.ne, List.nil_append]

/-- The keyframes of a number are those of the motion with that number. -/
theorem filter_index_flatMap {motions : List (Travel α)} :
    ∀ {start : Nat}, (∀ {place : Nat} {motion : Travel α}, motions[place]? = some motion →
        ∀ keyframe ∈ motion.keyframes, keyframe.index = start + place) →
      ∀ {place : Nat} {motion : Travel α}, motions[place]? = some motion →
        (motions.flatMap Travel.keyframes).filter (·.index = start + place) = motion.keyframes := by
  induction motions with
  | nil => intro start _ place motion hmotion; cases hmotion
  | cons first rest ih =>
    intro start hnumbers place motion hmotion
    have hfirst : ∀ keyframe ∈ first.keyframes, keyframe.index = start := @hnumbers 0 first rfl
    have hrest : ∀ {place : Nat} {motion : Travel α}, rest[place]? = some motion →
        ∀ keyframe ∈ motion.keyframes, keyframe.index = start + 1 + place := by
      intro place motion hmotion keyframe hkeyframe
      rw [@hnumbers (place + 1) motion hmotion keyframe hkeyframe]
      omega
    rw [List.flatMap_cons]
    cases place with
    | zero =>
      obtain rfl := Option.some.inj hmotion
      refine filter_index_append hfirst fun keyframe hkeyframe ↦ ?_
      obtain ⟨later, hlater, hmem⟩ := List.mem_flatMap.mp hkeyframe
      obtain ⟨place, hplace⟩ := List.mem_iff_getElem?.mp hlater
      have hindex := hrest hplace keyframe hmem
      omega
    | succ place =>
      rw [filter_index_append_of_lt _ hfirst (by omega), ← Nat.add_assoc, Nat.add_right_comm]
      exact ih hrest hmotion

end Numbers

/-! ### The motions of a program -/

/-- A timeline is the first target with its faults, or the first target without faults and the
motions from it. -/
theorem timeline_motions {cell : Cell α} {stepSize : α} {prepared : PreparedProgram α}
    {journey : Journey α} (h : Program.timeline cell stepSize prepared = .ok journey) :
    (prepared.first.faults ≠ [] ∧ journey =
      ⟨[prepared.first], [prepared.first], [], ProgramFault.ofStep prepared.first, 0⟩) ∨
    (prepared.first.faults = [] ∧ ∃ motions,
      Motions cell stepSize (keptFirst prepared.first) prepared.rest motions ∧
      journey = { Journey.ofMotions (keptFirst prepared.first).totalTime motions with
        targets := keptFirst prepared.first :: motions.map Travel.target
        keyframes := startKeyframes prepared.first ++ motions.flatMap Travel.keyframes }) := by
  rcases timeline_cases h with ⟨hfaults, rfl⟩ | ⟨hfaults, onward, honward, rfl⟩
  · exact .inl ⟨fun hnil ↦ hfaults (ofStep_eq_nil_iff.mpr hnil), rfl⟩
  · obtain ⟨motions, hmotions, rfl⟩ := exists_motions honward
    exact .inr ⟨ofStep_eq_nil_iff.mp hfaults, motions, hmotions, rfl⟩

theorem index_of_mem_startKeyframes (first : Step α) :
    ∀ keyframe ∈ startKeyframes first, keyframe.index = first.index := by
  rw [startKeyframes, keptFirst]
  split_ifs <;> simp

/-- The last keyframe of the first target is the target as it is kept. -/
theorem getLast?_startKeyframes (first : Step α) :
    (startKeyframes first).getLast? = some (keptFirst first) := by
  rw [startKeyframes, keptFirst]
  split_ifs <;> rfl

theorem startKeyframes_ne_nil (first : Step α) : startKeyframes first ≠ [] :=
  List.ne_nil_of_mem (List.mem_of_getLast? (getLast?_startKeyframes first))

theorem solutions_keptFirst (first : Step α) : (keptFirst first).solutions = first.solutions := by
  unfold keptFirst
  split_ifs <;> rfl

theorem targets_keptFirst (first : Step α) : (keptFirst first).targets = first.targets :=
  (Prod.mk.inj (task_keptFirst first)).2

theorem faults_keptFirst (first : Step α) : (keptFirst first).faults = first.faults := by
  unfold keptFirst
  split_ifs <;> rfl

theorem faults_of_mem_startKeyframes (first : Step α) :
    ∀ keyframe ∈ startKeyframes first, keyframe.faults = first.faults := by
  rw [startKeyframes, keptFirst]
  split_ifs <;> simp [Step.faults]

theorem solutions_of_mem_startKeyframes (first : Step α) :
    ∀ keyframe ∈ startKeyframes first, keyframe.solutions = first.solutions := by
  rw [startKeyframes, keptFirst]
  split_ifs <;> simp [Step.solutions]

theorem targets_of_mem_startKeyframes (first : Step α) :
    ∀ keyframe ∈ startKeyframes first, keyframe.targets = first.targets := by
  rw [startKeyframes, keptFirst]
  split_ifs <;> simp [Step.targets]

/-- The solutions of the step are those of the cell for some targets. -/
def Step.SolvedBy (cell : Cell α) (step : Step α) : Prop :=
  ∃ targets previous, cell.solve targets previous = .ok step.solutions

theorem Step.SolvedBy.congr {cell : Cell α} {step other : Step α} (h : step.SolvedBy cell)
    (hsame : other.solutions = step.solutions) : other.SolvedBy cell := by
  obtain ⟨targets, previous, hsolve⟩ := h
  exact ⟨targets, previous, hsame ▸ hsolve⟩

/-- The motion from the target `before` that ends at the kept target with the number `place + 1`, as
the timeline tells it. -/
structure Leg (cell : Cell α) (stepSize : α) (prepared : PreparedProgram α) (journey : Journey α)
    (place : Nat) (before next : Step α) (motion : Travel α) : Prop where
  start : journey.targets[place]? = some before
  faultless : before.faults = []
  /-- The motion starts from the first target or from the end of another motion. -/
  solved : before.solutions = prepared.first.solutions ∧
      before.targets = prepared.first.targets ∨
    ∃ earlier, ∃ other ∈ prepared.rest, before.targets = other.targets ∧
      cell.solve (other.endTargets earlier) (some earlier.joints) = .ok before.solutions
  stop : prepared.rest[place]? = some next
  count : next.waypoints.length = cell.groups.length
  index : next.index = place + 1
  travelled : Travelled cell stepSize before next before.totalTime motion
  keyframes : journey.keyframes.filter (·.index = place + 1) = motion.keyframes
  faults : ∀ fault ∈ motion.faults, fault ∈ journey.faults

namespace Stages

variable {cell : Cell α} {toolpaths : List (List (Target α))} {stepSize : α} {count : Nat}
  {first : Step α} {rest : List (Step α)} {solutions : List (Solution α)}
  {prepared : PreparedProgram α} {journey : Journey α}
  (h : Stages cell toolpaths stepSize count first rest solutions prepared journey)

include h

theorem length_rest : prepared.rest.length + 1 = count := by
  simpa using congrArg List.length h.index_prepared

theorem index_first : prepared.first.index = 0 := by
  have hindexes := h.index_prepared
  rw [← h.length_rest, List.range_succ_eq_map, List.map_cons, List.cons.injEq] at hindexes
  exact hindexes.1

theorem index_rest {place : Nat} {next : Step α} (hnext : prepared.rest[place]? = some next) :
    next.index = place + 1 := by
  have hentry := congrArg (·[place + 1]?) h.index_prepared
  simp only [List.map_cons, List.getElem?_cons_succ, List.getElem?_map, hnext,
    Option.map_some] at hentry
  obtain ⟨_, hvalue⟩ := List.getElem?_eq_some_iff.mp hentry.symm
  rw [← hvalue, List.getElem_range]

theorem length_waypoints_rest {place : Nat} {next : Step α}
    (hnext : prepared.rest[place]? = some next) : next.waypoints.length = cell.groups.length :=
  h.length_waypoints_prepared next (List.mem_cons_of_mem _ (List.mem_of_getElem? hnext))

/-- A program without faults keeps all of its targets. -/
theorem length_targets (hnone : journey.faults = []) : journey.targets.length = count := by
  rcases timeline_motions h.timeline with ⟨hfirst, rfl⟩ | ⟨_, motions, hmotions, rfl⟩
  · exact absurd (ofStep_eq_nil_iff.mp hnone) hfirst
  · rw [List.length_cons, List.length_map, hmotions.length_eq hnone, h.length_rest]

theorem index_keyframes {motions : List (Travel α)}
    (hmotions : Motions cell stepSize (keptFirst prepared.first) prepared.rest motions)
    {place : Nat} {motion : Travel α} (hmotion : motions[place]? = some motion) :
    ∀ keyframe ∈ motion.keyframes, keyframe.index = 1 + place := by
  obtain ⟨_, next, _, hnext, htravelled⟩ := hmotions.exists_travelled hmotion
  rw [Nat.add_comm 1, ← h.index_rest hnext]
  exact htravelled.index_keyframes (h.length_waypoints_rest hnext)

/-- The keyframes of the first target end with the target as it is kept. -/
theorem getLast?_keyframes_start {kept : Step α} (hkept : journey.targets[0]? = some kept)
    (hnone : ∀ fault ∈ journey.faults, fault.target ≠ 0) :
    (journey.keyframes.filter (·.index = 0)).getLast? = some kept := by
  rcases timeline_motions h.timeline with ⟨hfirst, rfl⟩ | ⟨_, motions, hmotions, rfl⟩
  · obtain ⟨fault, hfault⟩ := List.exists_mem_of_ne_nil _ (mt ofStep_eq_nil_iff.mp hfirst)
    exact absurd ((target_of_mem_ofStep hfault).trans h.index_first) (hnone fault hfault)
  · obtain rfl := Option.some.inj hkept
    have hstart : ∀ keyframe ∈ startKeyframes prepared.first, keyframe.index = 0 := by
      rw [← h.index_first]
      exact index_of_mem_startKeyframes prepared.first
    have hlater : ∀ keyframe ∈ motions.flatMap Travel.keyframes, 0 < keyframe.index := by
      intro keyframe hkeyframe
      obtain ⟨motion, hmotion, hmem⟩ := List.mem_flatMap.mp hkeyframe
      obtain ⟨place, hplace⟩ := List.mem_iff_getElem?.mp hmotion
      rw [h.index_keyframes hmotions hplace keyframe hmem]
      omega
    rw [filter_index_append hstart hlater, getLast?_startKeyframes]

/-- Every kept target but the first one is where a motion ends. -/
theorem exists_leg {place : Nat} {kept : Step α} (hkept : journey.targets[place + 1]? = some kept) :
    ∃ before next motion, motion.target = kept ∧
      Leg cell stepSize prepared journey place before next motion := by
  rcases timeline_motions h.timeline with ⟨_, rfl⟩ | ⟨hfirst, motions, hmotions, rfl⟩
  · cases hkept
  · rw [List.getElem?_cons_succ, List.getElem?_map, Option.map_eq_some_iff] at hkept
    obtain ⟨motion, hmotion, rfl⟩ := hkept
    obtain ⟨before, next, hbefore, hnext, htravelled⟩ := hmotions.exists_travelled hmotion
    have hstart : ∀ keyframe ∈ startKeyframes prepared.first, keyframe.index = 0 := by
      rw [← h.index_first]
      exact index_of_mem_startKeyframes prepared.first
    refine ⟨before, next, motion, rfl, hbefore, ?_, ?_, hnext, h.length_waypoints_rest hnext,
      h.index_rest hnext, htravelled, ?_, fun fault hfault ↦ ?_⟩
    · exact hmotions.faults_start ((faults_keptFirst _).trans hfirst) hbefore hmotion
    · rw [← solutions_keptFirst prepared.first, ← targets_keptFirst prepared.first]
      exact hmotions.solved_start (List.forall_mem_cons.mp h.length_waypoints_prepared).2 hbefore
        hmotion
    · rw [Nat.add_comm place 1, filter_index_append_of_lt _ hstart (by omega : 0 < 1 + place)]
      exact filter_index_flatMap (h.index_keyframes hmotions) hmotion
    · exact List.mem_flatMap.mpr ⟨motion, List.mem_of_getElem? hmotion, hfault⟩

/-- Whatever a motion starts from is a solved step. -/
theorem exists_solve_leg {place : Nat} {before next : Step α} {motion : Travel α}
    (hleg : Leg cell stepSize prepared journey place before next motion) :
    ∃ targets previous, cell.solve targets previous = .ok before.solutions := by
  rcases hleg.solved with ⟨hfirst, _⟩ | ⟨earlier, other, _, _, hsolve⟩
  · have hsolved := h.prepares.solutions_first (h.length_waypoints first List.mem_cons_self)
    exact ⟨_, none, hfirst ▸ hsolved ▸ h.prepares.solve⟩
  · exact ⟨_, _, hsolve⟩

theorem length_waypoints_leg {place : Nat} {before next : Step α} {motion : Travel α}
    (hleg : Leg cell stepSize prepared journey place before next motion) :
    before.waypoints.length = cell.groups.length := by
  obtain ⟨_, _, hsolve⟩ := h.exists_solve_leg hleg
  rw [← Step.length_solutions, (Cell.length_of_solve hsolve).2]

theorem solvedBy_first : prepared.first.SolvedBy cell := by
  have hsolved := h.prepares.solutions_first (h.length_waypoints first List.mem_cons_self)
  exact ⟨_, none, hsolved ▸ h.prepares.solve⟩

/-- Every keyframe is a solved step. -/
theorem solvedBy_keyframe {keyframe : Step α} (hkeyframe : keyframe ∈ journey.keyframes) :
    keyframe.SolvedBy cell := by
  rcases timeline_motions h.timeline with ⟨_, rfl⟩ | ⟨_, motions, hmotions, rfl⟩
  · obtain rfl := List.mem_singleton.mp hkeyframe
    exact h.solvedBy_first
  · rcases List.mem_append.mp hkeyframe with hstart | hlater
    · have hsame : keyframe.solutions = prepared.first.solutions :=
        solutions_of_mem_startKeyframes prepared.first keyframe hstart
      exact h.solvedBy_first.congr hsame
    · obtain ⟨motion, hmotion, hmem⟩ := List.mem_flatMap.mp hlater
      obtain ⟨place, hplace⟩ := List.mem_iff_getElem?.mp hmotion
      obtain ⟨before, next, _, hnext, htravelled⟩ := hmotions.exists_travelled hplace
      obtain ⟨_, _, _, last, substep, _, hsolved, _, hwaypoints⟩ :=
        htravelled.exists_solvedFrom (h.length_waypoints_rest hnext) hmem
      refine Step.SolvedBy.congr ⟨_, _, hsolved.solve⟩ ?_
      rw [Step.solutions, hwaypoints, Step.solutions]

/-- Every kept target is a solved step, unless its motion has no configuration to start from. -/
theorem solvedBy_target {kept : Step α} (hkept : kept ∈ journey.targets) :
    kept.SolvedBy cell ∨ ∃ group, .undefinedStart kept.index group ∈ journey.faults := by
  obtain ⟨place, hplace⟩ := List.mem_iff_getElem?.mp hkept
  cases place with
  | zero =>
    left
    rcases timeline_motions h.timeline with ⟨_, rfl⟩ | ⟨_, motions, _, rfl⟩
    · exact Option.some.inj hplace ▸ h.solvedBy_first
    · obtain rfl := Option.some.inj hplace
      exact h.solvedBy_first.congr (solutions_keptFirst prepared.first)
  | succ place =>
    obtain ⟨before, next, motion, rfl, hleg⟩ := h.exists_leg hplace
    have hcount := hleg.count
    have hfaults := hleg.faults
    have harrived : ∀ {solutions : List (Solution α)},
        cell.solve (next.endTargets before) (some before.joints) = .ok solutions →
          (arrivedAt before next solutions).SolvedBy cell := by
      intro solutions hsolve
      exact ⟨_, _, hsolve.trans (congrArg Except.ok
        (Travelled.solutions_arrivedAt hcount hsolve).symm)⟩
    cases hleg.travelled with
    | undefined hundefined =>
      right
      obtain ⟨fault, hfault⟩ := List.exists_mem_of_ne_nil _ hundefined
      obtain ⟨group, rfl⟩ := exists_of_mem_undefinedStarts hfault
      exact ⟨group, hfaults _ hfault⟩
    | unreached hsolve => exact .inl (harrived hsolve)
    | stopped hsolve => exact .inl (harrived hsolve)
    | completed hsolve =>
      exact .inl ((harrived hsolve).congr (solutions_completeTravel _ _ _ _ _ _))

/-- In a program of several targets without faults, the keyframes of the first target are followed
by those of the first motion. -/
theorem exists_first_motion (hmany : 2 ≤ count) (hnone : journey.faults = []) :
    prepared.first.faults = [] ∧ ∃ named motion keyframe later, prepared.rest[0]? = some named ∧
      Travelled cell stepSize (keptFirst prepared.first) named (keptFirst prepared.first).totalTime
        motion ∧
      keyframe ∈ motion.keyframes ∧
      journey.keyframes = startKeyframes prepared.first ++ keyframe :: later := by
  rcases timeline_motions h.timeline with ⟨hfaults, rfl⟩ | ⟨hfaults, motions, hmotions, rfl⟩
  · exact absurd (ofStep_eq_nil_iff.mp hnone) hfaults
  have hlength : 0 < motions.length := by
    have hrest := h.length_rest
    rw [hmotions.length_eq hnone]
    omega
  obtain ⟨motion, others, rfl⟩ := List.exists_cons_of_length_pos hlength
  obtain ⟨before, named, hbefore, hnamed, htravelled⟩ :=
    hmotions.exists_travelled (List.getElem?_cons_zero : (motion :: others)[0]? = some motion)
  obtain rfl := Option.some.inj hbefore
  obtain ⟨keyframe, remaining, hkeyframes⟩ := List.exists_cons_of_ne_nil
    (htravelled.keyframes_ne_nil (List.flatMap_eq_nil_iff.mp hnone motion List.mem_cons_self))
  refine ⟨hfaults, named, motion, keyframe, remaining ++ others.flatMap Travel.keyframes, hnamed,
    htravelled, hkeyframes ▸ List.mem_cons_self, ?_⟩
  change startKeyframes prepared.first ++ (motion :: others).flatMap Travel.keyframes = _
  rw [List.flatMap_cons, hkeyframes, List.cons_append]

end Stages

/-- A motion has no faults where none is reported for its target. -/
theorem Leg.faults_motion {cell : Cell α} {stepSize : α} {prepared : PreparedProgram α}
    {journey : Journey α} {place : Nat} {before next : Step α} {motion : Travel α}
    (h : Leg cell stepSize prepared journey place before next motion)
    (hnone : ∀ fault ∈ journey.faults, fault.target ≠ place + 1) : motion.faults = [] := by
  refine List.eq_nil_iff_forall_not_mem.mpr fun fault hfault ↦ ?_
  have hnames := (h.travelled.names_of_mem_faults h.count hfault).1
  exact hnone fault (h.faults fault hfault) (hnames.trans h.index)

/-- A program without faults has a keyframe of every motion. -/
theorem Stages.exists_keyframe {cell : Cell α} {toolpaths : List (List (Target α))} {stepSize : α}
    {count : Nat} {first : Step α} {rest : List (Step α)} {solutions : List (Solution α)}
    {prepared : PreparedProgram α} {journey : Journey α}
    (h : Stages cell toolpaths stepSize count first rest solutions prepared journey)
    (hnone : journey.faults = []) {place : Nat} (hplace : place + 1 < count) :
    ∃ keyframe ∈ journey.keyframes, keyframe.index = place + 1 := by
  have hkept := List.getElem?_eq_getElem (h.length_targets hnone ▸ hplace)
  obtain ⟨before, next, motion, _, hleg⟩ := h.exists_leg hkept
  have hmotion : motion.faults = [] := by
    refine hleg.faults_motion ?_
    rw [hnone]
    exact List.forall_mem_nil _
  obtain ⟨keyframe, hkeyframe⟩ :=
    List.exists_mem_of_ne_nil _ (hleg.travelled.keyframes_ne_nil hmotion)
  rw [← hleg.keyframes, List.mem_filter] at hkeyframe
  exact ⟨keyframe, hkeyframe.1, of_decide_eq_true hkeyframe.2⟩

end Toolpath
