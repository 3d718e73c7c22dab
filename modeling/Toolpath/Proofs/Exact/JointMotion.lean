import Toolpath.Proofs.Exact.Ranges
import Toolpath.Proofs.Motions
import Toolpath.Proofs.Preparation

/-!
Programs of joint targets never fail over exact numbers. A group takes the axis values that it
admits, those of its mechanisms too (`Cell.solve_attainable`). Between two positions that are
admitted every position is (`Step.between_attainable`), so that a motion between them runs to its
end (`Travelled.faults_of_attainable`), and with it the whole program (`compile_attainable`). All
keyframes of the motion stand at its end (`Travelled.asks_keyframe`).
-/

set_option autoImplicit false
set_option relaxedAutoImplicit false

namespace Toolpath

/-- The target gives axis values that the group can take. -/
def Target.Attainable (target : Target ℝ) (group : Group ℝ) : Prop :=
  ∃ values, target.Asks group values

/-- The target of a group gives axis values that the group can take. -/
def Cell.AttainableBy (cell : Cell ℝ) (index : Nat) (target : Target ℝ) : Prop :=
  ∀ group, cell.groups[index]? = some group → target.Attainable group

theorem Target.Asks.isLinear {target : Target ℝ} {group : Group ℝ} {values : List ℝ}
    (h : target.Asks group values) : target.isLinear = false := by
  rw [Target.isLinear, h.goal]

theorem Target.Attainable.isLinear {target : Target ℝ} {group : Group ℝ}
    (h : target.Attainable group) : target.isLinear = false :=
  h.elim fun _ ↦ Asks.isLinear

/-- The target has as many external values as its group has external axes. -/
theorem Target.Asks.fitExternal {cell : Cell ℝ} {index : Nat} {group : Group ℝ} {target : Target ℝ}
    {values : List ℝ} (h : target.Asks group values) (hgroup : cell.groups[index]? = some group) :
    (fitExternal cell index target).Asks group values := by
  refine ⟨h.goal, ?_, h.admits⟩
  rw [Toolpath.fitExternal, Cell.externalCount_of_getElem? hgroup,
    resize_eq_self (h.external ▸ h.admits.length_drop)]
  exact h.external

theorem Target.Asks.relabel {group : Group ℝ} {target : Target ℝ} {values : List ℝ}
    (h : target.Asks group values) (change : Relabelling) :
    (target.relabel change).Asks group values :=
  ⟨h.goal, h.external, h.admits⟩

theorem Cell.AttainableBy.fitExternal {cell : Cell ℝ} {index : Nat} {target : Target ℝ}
    (h : cell.AttainableBy index target) :
    cell.AttainableBy index (fitExternal cell index target) := by
  intro group hgroup
  obtain ⟨values, hasks⟩ := h group hgroup
  exact ⟨values, hasks.fitExternal hgroup⟩

/-- No group moves on a straight line. -/
theorem Step.isLinear_of_attainable {cell : Cell ℝ} {step : Step ℝ}
    (h : step.EachTarget cell.AttainableBy) (hcount : step.targets.length = cell.groups.length) :
    ∀ target ∈ step.targets, target.isLinear = false := by
  intro target htarget
  obtain ⟨index, hindex⟩ := List.mem_iff_getElem?.mp htarget
  obtain ⟨hlt, _⟩ := List.getElem?_eq_some_iff.mp hindex
  exact (h index target hindex _ (List.getElem?_eq_getElem (hcount ▸ hlt))).isLinear

/-! ### Solved targets -/

theorem Cell.solve_attainable {cell : Cell ℝ} {targets : List (Target ℝ)}
    (htargets : ∀ index target, targets[index]? = some target → cell.AttainableBy index target)
    {previous : Option (List (List ℝ))} {solutions : List (Solution ℝ)}
    (hsolve : cell.solve targets previous = .ok solutions) {index : Nat} {solution : Solution ℝ}
    (hsolution : solutions[index]? = some solution) :
    solution.faults = [] ∧
      ∀ group, cell.groups[index]? = some group → group.Admits solution.joints := by
  obtain ⟨hcount, hframes⟩ := checked_of_solve hsolve
  obtain ⟨group, target, _, hgroup, htarget, _⟩ :=
    exists_solve_of_getElem? hcount hframes hsolve hsolution
  obtain ⟨values, hasks⟩ := htargets index target htarget group hgroup
  obtain ⟨hjoints, hfaults⟩ := solve_asked hsolve hgroup htarget hsolution hasks
  refine ⟨hfaults, fun held hheld ↦ ?_⟩
  obtain rfl := Option.some.inj (hgroup.symm.trans hheld)
  exact hjoints ▸ hasks.admits

/-- Every group stands on axis values that it can take. -/
def Step.Stands (step : Step ℝ) (cell : Cell ℝ) : Prop :=
  ∀ (index : Nat) (group : Group ℝ) (solution : Solution ℝ), cell.groups[index]? = some group →
    step.solutions[index]? = some solution → group.Admits solution.joints

/-- Without faults every group of a solved step stands in its ranges. -/
theorem Step.stands_of_faultless {cell : Cell ℝ} {targets : List (Target ℝ)}
    {previous : Option (List (List ℝ))} {step : Step ℝ}
    (hsolve : cell.solve targets previous = .ok step.solutions) (hfaults : step.faults = []) :
    step.Stands cell := by
  intro index group solution hgroup hsolution
  obtain ⟨target, coupled, _, hfound⟩ := Cell.exists_solve_of_group hsolve hgroup
  obtain rfl := Option.some.inj (hfound.symm.trans hsolution)
  exact Group.admits_solve (Step.faults_of_mem_solutions hfaults (List.mem_of_getElem? hsolution))

/-- A step that was solved for attainable targets has no faults. -/
theorem Step.stands_of_solve {cell : Cell ℝ} {targets : List (Target ℝ)}
    (htargets : ∀ index target, targets[index]? = some target → cell.AttainableBy index target)
    {previous : Option (List (List ℝ))} {step : Step ℝ}
    (hsolve : cell.solve targets previous = .ok step.solutions) :
    step.faults = [] ∧ step.Stands cell := by
  constructor
  · refine Step.faults_eq_nil fun solution hsolution ↦ ?_
    obtain ⟨index, hindex⟩ := List.mem_iff_getElem?.mp hsolution
    exact (Cell.solve_attainable htargets hsolve hindex).1
  · intro index group solution hgroup hsolution
    exact (Cell.solve_attainable htargets hsolve hsolution).2 group hgroup

theorem Step.stands_withSolutions {cell : Cell ℝ} {targets : List (Target ℝ)}
    (htargets : ∀ index target, targets[index]? = some target → cell.AttainableBy index target)
    {previous : Option (List (List ℝ))} {solutions : List (Solution ℝ)}
    (hsolve : cell.solve targets previous = .ok solutions) {step : Step ℝ}
    (hcount : step.waypoints.length = cell.groups.length) (before : Option (Step ℝ)) :
    (step.withSolutions solutions before).faults = [] ∧
      (step.withSolutions solutions before).Stands cell := by
  have hlength : solutions.length = step.waypoints.length := by
    rw [(Cell.length_of_solve hsolve).2, hcount]
  have hstored := Step.solutions_withSolutions before hlength
  exact Step.stands_of_solve htargets (hstored.symm ▸ hsolve)

/-! ### Motions -/

namespace Step

variable {cell : Cell ℝ} {previous next : Step ℝ}

theorem between_attainable (hnext : next.EachTarget cell.AttainableBy)
    (hprevious : previous.Stands cell) (hstands : next.Stands cell) {part whole : Nat}
    (hle : part ≤ whole) :
    ∀ index target, (next.between previous cell (.ofParts part whole))[index]? = some target →
      cell.AttainableBy index target := by
  intro index target htarget group hgroup
  obtain ⟨waypoint, before, hwaypoint, hbefore, _⟩ := exists_between_of_getElem? htarget
  have hstart := getElem?_solutions hbefore
  have hstop := getElem?_solutions hwaypoint
  have hjoint := fun given hgiven ↦ (hnext index given hgiven group hgroup).isLinear
  exact ⟨_, asks_between hgroup hjoint hstart hstop (hprevious index group _ hgroup hstart)
    (hstands index group _ hgroup hstop) hle htarget⟩

/-- Without linear motions every motion has where to start from. -/
theorem undefinedStarts_of_attainable (hnext : next.EachTarget cell.AttainableBy)
    (hcount : next.waypoints.length = cell.groups.length) :
    next.undefinedStarts previous = [] := by
  rw [undefinedStarts, List.filterMap_eq_nil_iff]
  rintro ⟨⟨waypoint, before⟩, index⟩ hentry
  have hpair := List.mem_zipIdx_iff_getElem?.mp hentry
  have htarget := getElem?_targets (List.getElem?_zip_eq_some.mp hpair).1
  have hjoint := isLinear_of_attainable hnext ((length_targets next).trans hcount) _
    (List.mem_of_getElem? htarget)
  simp [hjoint]

/-- Off a straight way a target is solved at the end of its motion as it is given. -/
theorem exists_of_getElem?_endTargets {index : Nat} {target : Target ℝ}
    (h : (next.endTargets previous)[index]? = some target) :
    ∃ given, next.targets[index]? = some given ∧ (given.isLinear = false → target = given) := by
  rw [endTargets, List.getElem?_zipWith_eq_some] at h
  obtain ⟨waypoint, before, hwaypoint, _, rfl⟩ := h
  refine ⟨_, getElem?_targets hwaypoint, fun hjoint ↦ ?_⟩
  rw [hjoint, if_neg Bool.false_ne_true]

theorem endTargets_attainable (hnext : next.EachTarget cell.AttainableBy) (previous : Step ℝ) :
    ∀ index target, (next.endTargets previous)[index]? = some target →
      cell.AttainableBy index target := by
  intro index target htarget group hgroup
  obtain ⟨given, hgiven, hsame⟩ := exists_of_getElem?_endTargets htarget
  have hattainable := hnext index given hgiven group hgroup
  exact hsame hattainable.isLinear ▸ hattainable

/-- Off a straight way a motion has a single substep. -/
theorem motionDivisions_eq_one (hnext : next.EachTarget cell.AttainableBy)
    (hcount : next.waypoints.length = cell.groups.length) (previous : Step ℝ) (stepSize : ℝ) :
    next.motionDivisions previous stepSize = 1 := by
  refine le_antisymm (foldl_max_le_iff.mpr ⟨le_rfl, fun divisions hdivisions ↦ ?_⟩)
    (one_le_motionDivisions next previous stepSize)
  obtain ⟨index, hindex⟩ := List.mem_iff_getElem?.mp hdivisions
  obtain ⟨waypoint, before, hwaypoint, _, rfl⟩ := List.getElem?_zipWith_eq_some.mp hindex
  have hjoint := isLinear_of_attainable hnext ((length_targets next).trans hcount) _
    (List.mem_of_getElem? (getElem?_targets hwaypoint))
  rw [Waypoint.divisions, hjoint, if_neg Bool.false_ne_true]
  exact Nat.zero_le 1

end Step

section Motions

variable {cell : Cell ℝ} {stepSize : ℝ} {previous next : Step ℝ}

/-- Between two positions that the groups can take, no substep has faults. -/
theorem faults_substepsFrom_of_attainable (hnext : next.EachTarget cell.AttainableBy)
    (hprevious : previous.Stands cell) (hstands : next.Stands cell)
    (hcount : next.waypoints.length = cell.groups.length) {divisions : Nat} {total : ℝ}
    {substeps : List (Substep ℝ)} {faults : List ProgramFault}
    (h : substepsFrom cell previous next divisions divisions 1 previous total =
      .ok (substeps, faults)) : faults = [] := by
  refine (substepsFrom_of_solved hcount (P := fun _ ↦ True) ?_ trivial (by omega) h).1
  intro number _ solutions hle _ hsolve
  have hasked := Step.between_attainable hnext hprevious hstands hle
  refine ⟨fun solution hsolution ↦ ?_, trivial⟩
  obtain ⟨index, hindex⟩ := List.mem_iff_getElem?.mp hsolution
  exact (Cell.solve_attainable hasked hsolve hindex).1

/-- A motion from a position of the arms to attainable targets runs to its end. -/
theorem Travelled.faults_of_attainable (hnext : next.EachTarget cell.AttainableBy)
    (hprevious : previous.Stands cell) (hcount : next.waypoints.length = cell.groups.length)
    {motion : Travel ℝ} (h : Travelled cell stepSize previous next previous.totalTime motion) :
    motion.faults = [] ∧ motion.target.Stands cell := by
  have harrived : ∀ {solutions : List (Solution ℝ)},
      cell.solve (next.endTargets previous) (some previous.joints) = .ok solutions →
        (arrivedAt previous next solutions).faults = [] ∧
          (arrivedAt previous next solutions).Stands cell := fun hsolve ↦
    Step.stands_withSolutions (Step.endTargets_attainable hnext previous) hsolve hcount _
  cases h with
  | undefined hundefined =>
    exact absurd (Step.undefinedStarts_of_attainable hnext hcount) hundefined
  | unreached hsolve hfaults => exact absurd (ofStep_eq_nil_iff.mpr (harrived hsolve).1) hfaults
  | completed hsolve =>
    refine ⟨rfl, ?_⟩
    unfold Step.Stands
    rw [solutions_completeTravel]
    exact (harrived hsolve).2
  | @stopped solutions _ _ _ hsolve _ _ hsubsteps hfaults =>
    have htargets : (arrivedAt previous next solutions).EachTarget cell.AttainableBy := by
      unfold Step.EachTarget
      rwa [targets_arrivedAt hcount hsolve]
    exact absurd (faults_substepsFrom_of_attainable htargets hprevious (harrived hsolve).2
      (Travelled.length_arrivedAt hcount hsolve) hsubsteps) hfaults

/-- A motion that runs to its end gives no axis values but such that the arms can take. -/
theorem Travelled.admits_of_faults_nil {motion : Travel ℝ}
    (h : Travelled cell stepSize previous next previous.totalTime motion)
    (hfaults : motion.faults = []) (hcount : next.waypoints.length = cell.groups.length)
    {index : Nat} {group : Group ℝ} {target : Target ℝ} {values : List ℝ}
    (hgroup : cell.groups[index]? = some group) (htarget : next.targets[index]? = some target)
    (hgoal : target.goal = .joints values) : group.arm.Admits values := by
  obtain ⟨solutions, _, _, _, hsolve, hreached, _, _⟩ := h.exists_completed hfaults
  obtain ⟨given, _, hgiven, hsolution⟩ := Cell.exists_solve_of_group hsolve hgroup
  have hgivenGoal : given.goal = .joints values := by
    obtain ⟨authored, hauthored, hsame⟩ := Step.exists_of_getElem?_endTargets hgiven
    obtain rfl := Option.some.inj (htarget.symm.trans hauthored)
    rw [hsame (by rw [Target.isLinear, hgoal]), hgoal]
  have hmem := solutions_arrivedAt hcount hsolve ▸ List.mem_of_getElem? hsolution
  exact Group.admits_of_solve hgivenGoal (Step.faults_of_mem_solutions hreached hmem)

section Keyframes

variable (hnext : next.EachTarget cell.AttainableBy) (hprevious : previous.Stands cell)
  (hcount : next.waypoints.length = cell.groups.length) {motion : Travel ℝ}
  (h : Travelled cell stepSize previous next previous.totalTime motion) {keyframe : Step ℝ}
  (hkeyframe : keyframe ∈ motion.keyframes)

include hnext hprevious hcount h hkeyframe

/-- The keyframes of a motion to attainable targets are its single substep. -/
theorem Travelled.solve_keyframe : ∃ solutions,
    cell.solve (next.endTargets previous) (some previous.joints) = .ok solutions ∧
    keyframe.targets =
      (arrivedAt previous next solutions).between previous cell (.ofParts 1 1) ∧
    cell.solve keyframe.targets (some previous.joints) = .ok keyframe.solutions := by
  have hnone := (h.faults_of_attainable hnext hprevious hcount).1
  cases h with
  | undefined | unreached => cases hkeyframe
  | stopped _ _ _ _ hfaults => exact absurd hnone hfaults
  | @completed solutions divisions substeps hsolve _ hdivisions hsubsteps =>
    refine ⟨solutions, hsolve, ?_⟩
    have harrived := length_arrivedAt hcount hsolve
    have htargets : (arrivedAt previous next solutions).EachTarget cell.AttainableBy := by
      unfold Step.EachTarget
      rwa [targets_arrivedAt hcount hsolve]
    obtain rfl : divisions = 1 := hdivisions.trans
      (Step.motionDivisions_eq_one htargets harrived previous stepSize)
    obtain ⟨reached, hreached, _, rfl, ⟨_, rest, hrest, rfl⟩ | ⟨hne, _, hnil⟩⟩ :=
      substepsFrom_succ_cases hsubsteps
    · obtain rfl : [] = rest := (Prod.mk.inj (Except.ok.inj hrest)).1
      rw [← List.nil_append [_]] at hkeyframe
      obtain ⟨substep, hsubstep, _, hwaypoints⟩ := exists_substep_of_mem_completeTravel hkeyframe
      obtain rfl := List.mem_singleton.mp hsubstep
      obtain ⟨hasked, hfound⟩ := Cell.length_of_solve hreached
      have htargets : keyframe.targets =
          (arrivedAt previous next solutions).between previous cell (.ofParts 1 1) := by
        rw [Step.targets, hwaypoints]
        exact targets_substepAt (hasked.trans harrived.symm) (hfound.trans harrived.symm)
      have hsolutions : keyframe.solutions = reached := by
        rw [Step.solutions, hwaypoints]
        exact solutions_substepAt (hasked.trans harrived.symm) (hfound.trans harrived.symm)
      rw [htargets, hsolutions]
      exact ⟨rfl, hreached⟩
    · exact absurd hnil.symm hne

/-- They stand on the axis values that the targets ask for. -/
theorem Travelled.asks_keyframe {index : Nat} {group : Group ℝ} {target : Target ℝ}
    {values : List ℝ} (hgroup : cell.groups[index]? = some group)
    (htarget : next.targets[index]? = some target) (hasks : target.Asks group values) :
    ∃ asked solution, keyframe.targets[index]? = some asked ∧ asked.Asks group values ∧
      keyframe.solutions[index]? = some solution ∧ solution.joints = values := by
  obtain ⟨solutions, hsolve, htargets, hreached⟩ :=
    h.solve_keyframe hnext hprevious hcount hkeyframe
  have hstored := targets_arrivedAt hcount hsolve
  have hfound := solutions_arrivedAt hcount hsolve
  -- The target itself is solved to its values.
  obtain ⟨given, _, hgiven, hstop⟩ := Cell.exists_solve_of_group hsolve hgroup
  obtain ⟨authored, hauthored, hsame⟩ := Step.exists_of_getElem?_endTargets hgiven
  obtain rfl := Option.some.inj (htarget.symm.trans hauthored)
  obtain ⟨hvalues, _⟩ := Cell.solve_asked hsolve hgroup (hsame hasks.isLinear ▸ hgiven) hstop hasks
  -- The substep at the end of the motion asks for them again.
  obtain ⟨asked, _, hasked, hsolution⟩ := Cell.exists_solve_of_group hreached hgroup
  obtain ⟨_, before, _, hbefore, _⟩ := Step.exists_between_of_getElem? (htargets ▸ hasked)
  have hstart := Step.getElem?_solutions hbefore
  have hjoint := fun other hother ↦ (hnext index other (hstored ▸ hother) group hgroup).isLinear
  have hbetween := Step.asks_between hgroup hjoint hstart (hfound.symm ▸ hstop)
    (hprevious index group _ hgroup hstart) (hvalues ▸ hasks.admits) le_rfl (htargets ▸ hasked)
  rw [Moment.interpolateAll_ofParts_self one_ne_zero, hvalues] at hbetween
  exact ⟨asked, _, hasked, hbetween, hsolution,
    (Cell.solve_asked hreached hgroup hasked hsolution hbetween).1⟩

theorem Travelled.isLinear_keyframe : ∀ target ∈ keyframe.targets, target.isLinear = false := by
  obtain ⟨_, _, _, hreached⟩ := h.solve_keyframe hnext hprevious hcount hkeyframe
  refine Step.isLinear_of_attainable (fun index asked hasked group hgroup ↦ ?_)
    (Cell.length_of_solve hreached).1
  obtain ⟨hindex, _⟩ := List.getElem?_eq_some_iff.mp hgroup
  have htarget := List.getElem?_eq_getElem
    (((Step.length_targets next).trans hcount).symm ▸ hindex : index < next.targets.length)
  obtain ⟨values, hasks⟩ := hnext index _ htarget group hgroup
  obtain ⟨_, _, hfound, hkept, _⟩ :=
    h.asks_keyframe hnext hprevious hcount hkeyframe hgroup htarget hasks
  exact ⟨values, Option.some.inj (hfound.symm.trans hasked) ▸ hkept⟩

end Keyframes

theorem Motions.faults_of_attainable {rest : List (Step ℝ)} {motions : List (Travel ℝ)}
    (h : Motions cell stepSize previous rest motions)
    (hprevious : previous.Stands cell)
    (hrest : ∀ step ∈ rest, step.EachTarget cell.AttainableBy)
    (hcount : ∀ step ∈ rest, step.waypoints.length = cell.groups.length) :
    motions.flatMap Travel.faults = [] := by
  induction h with
  | done => rfl
  | stopped rest htravelled hfaults =>
    rw [List.forall_mem_cons] at hrest hcount
    exact absurd (htravelled.faults_of_attainable hrest.1 hprevious hcount.1).1 hfaults
  | onward htravelled hfaults _ ih =>
    rw [List.forall_mem_cons] at hrest hcount
    have hstands := (htravelled.faults_of_attainable hrest.1 hprevious hcount.1).2
    rw [List.flatMap_cons, hfaults, ih hstands hrest.2 hcount.2, List.append_nil]

end Motions

/-! ### Programs -/

theorem Cell.survivesPreparation_attainableBy (cell : Cell ℝ) :
    SurvivesPreparation cell cell.AttainableBy where
  external := fun _ _ h ↦ h.fitExternal
  configuration := by
    intro index target h group hgroup
    obtain ⟨values, hasks⟩ := h group hgroup
    rw [Target.withConfiguration, hasks.goal]
    exact ⟨values, hasks⟩
  relabel := by
    intro naming index target h group hgroup
    obtain ⟨values, hasks⟩ := h group hgroup
    exact ⟨values, hasks.relabel _⟩
  anchor := by
    intro index target solution h
    unfold anchorTarget
    split_ifs with hcartesian
    · intro group hgroup
      obtain ⟨values, hasks⟩ := h group hgroup
      rw [Target.isCartesian, hasks.goal] at hcartesian
      cases hcartesian
    · exact h

/-- A first step of attainable targets is solved without faults. -/
theorem Stages.stands_first {cell : Cell ℝ} {toolpaths : List (List (Target ℝ))} {stepSize : ℝ}
    {count : Nat} {first : Step ℝ} {rest : List (Step ℝ)} {solutions : List (Solution ℝ)}
    {prepared : PreparedProgram ℝ} {journey : Journey ℝ}
    (h : Stages cell toolpaths stepSize count first rest solutions prepared journey)
    (hfirst : first.EachTarget cell.AttainableBy) :
    prepared.first.faults = [] ∧ prepared.first.Stands cell := by
  have hsolved := h.prepares.solutions_first (h.length_waypoints first List.mem_cons_self)
  have hfitted : (first.mapTargets (fitExternal cell)).EachTarget cell.AttainableBy :=
    hfirst.mapTargets fun _ _ hattainable ↦ hattainable.fitExternal
  exact Step.stands_of_solve hfitted (hsolved.symm ▸ h.prepares.solve)

/-- A program of joint targets that the arms can take has no faults. -/
theorem compile_attainable {name : String} {cell : Cell ℝ} {toolpaths : List (List (Target ℝ))}
    {stepSize : ℝ} (htargets : ∀ index toolpath, toolpaths[index]? = some toolpath →
      ∀ target ∈ toolpath, cell.AttainableBy index target) {program : Program ℝ}
    (h : Program.compile name cell toolpaths stepSize = .ok program) : program.faults = [] := by
  obtain ⟨count, first, rest, solutions, prepared, journey, hstages, _, _, _, hfaults, _⟩ :=
    exists_stages h
  have hprepared := hstages.eachTarget cell.survivesPreparation_attainableBy htargets
  rw [List.forall_mem_cons] at hprepared
  have hwaypoints := hstages.length_waypoints_prepared
  rw [List.forall_mem_cons] at hwaypoints
  have hauthored := eachTarget_of_mem_stepsOf hstages.length htargets
  rw [hstages.steps, List.forall_mem_cons] at hauthored
  obtain ⟨hclean, hstands⟩ := hstages.stands_first hauthored.1
  rw [hfaults]
  rcases timeline_motions hstages.timeline with ⟨hfirst, _⟩ | ⟨_, motions, hmotions, rfl⟩
  · exact absurd hclean hfirst
  · have hkept : (keptFirst prepared.first).Stands cell := by
      unfold keptFirst
      split_ifs <;> exact hstands
    exact hmotions.faults_of_attainable hkept hprepared.2 hwaypoints.2

/-! ### An arm that rests -/

/-- An arm with unit ranges. -/
noncomputable def restingArm : Arm ℝ :=
  ⟨"Rest", .abb, .sphericalWrist ⟨fun _ ↦ 0, fun _ ↦ 0⟩, List.replicate 6 (.revolute 0 0 (-1) 1 1),
    1, 0⟩

theorem isInRange_unit {value : ℝ} (h : |value| ≤ 1) :
    (Joint.revolute 0 0 (-1) 1 1 : Joint ℝ).isInRange value = true := by
  obtain ⟨hlow, hhigh⟩ := abs_le.mp h
  rw [Joint.isInRange, Bool.and_eq_true, decide_eq_true_iff, decide_eq_true_iff]
  simp only [Joint.revolute, Joint.tolerance]
  constructor <;> linarith

theorem admits_restingArm {value : ℝ} (h : |value| ≤ 1) :
    restingArm.Admits (List.replicate 6 value) :=
  ⟨rfl, by simp [outOfRange, restingArm, List.replicate, isInRange_unit h]⟩

/-- All six axes at one value. -/
noncomputable def standing (value : ℝ) : Target ℝ :=
  .ofGoal (.joints (List.replicate 6 value))

theorem forall_mem_pair {P : Nat → Target ℝ → Prop} {start stop : Target ℝ}
    (hstart : ∀ index, P index start) (hstop : ∀ index, P index stop) :
    ∀ (index : Nat) (toolpath : List (Target ℝ)), [[start, stop]][index]? = some toolpath →
      ∀ target ∈ toolpath, P index target := by
  intro index toolpath htoolpath target htarget
  obtain rfl := List.mem_singleton.mp (List.mem_of_getElem? htoolpath)
  rcases List.mem_pair.mp htarget with rfl | rfl
  · exact hstart index
  · exact hstop index

/-- Two targets in frames that nothing carries make a program. -/
theorem exists_compile_pair (name : String) {cell : Cell ℝ} (hgroups : cell.groups.length = 1)
    {start stop : Target ℝ} (hstart : start.coupling = (none, none))
    (hstop : stop.coupling = (none, none)) :
    ∃ program, Program.compile name cell [[start, stop]] 1 = .ok program := by
  have hsize : isStepSize (1 : ℝ) = true := by simp [isStepSize, Exact.isFinite_eq_true]
  have hcount : toolpathLength [[start, stop]] = .ok 2 := rfl
  refine exists_compile_uncoupled name hgroups.symm hcount hsize ?_
  intro toolpath htoolpath target htarget
  obtain rfl := List.mem_singleton.mp htoolpath
  rcases List.mem_pair.mp htarget with rfl | rfl <;> assumption

theorem exists_compile_standing (start stop : ℝ) : ∃ program,
    Program.compile "Standing" (.single restingArm) [[standing start, standing stop]] 1 =
      .ok program :=
  exists_compile_pair "Standing" rfl rfl rfl

theorem attainableBy_standing {value : ℝ} (h : |value| ≤ 1) (index : Nat) :
    (Cell.single restingArm).AttainableBy index (standing value) := by
  intro group hgroup
  obtain rfl := List.mem_singleton.mp (List.mem_of_getElem? hgroup)
  exact ⟨_, rfl, rfl, Group.admits_append (admits_restingArm h) rfl rfl⟩

/-- Between values in its range the arm moves without faults. -/
theorem faults_standing {start stop : ℝ} (hstart : |start| ≤ 1) (hstop : |stop| ≤ 1)
    {program : Program ℝ} (h : Program.compile "Standing" (.single restingArm)
      [[standing start, standing stop]] 1 = .ok program) : program.faults = [] :=
  compile_attainable
    (forall_mem_pair (attainableBy_standing hstart) (attainableBy_standing hstop)) h

end Toolpath
