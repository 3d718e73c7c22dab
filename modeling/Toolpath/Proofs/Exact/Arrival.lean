import Toolpath.Proofs.Exact.Frames
import Toolpath.Proofs.Exact.Passage
import Toolpath.Proofs.Exact.Resolved

/-!
Where the keyframes of a motion end. The target of a motion is solved before its substeps, and the
last substep asks for the same place again: for the axis values of the target on a joint motion, for
its pose on a straight one (`Repeats`). On a joint motion the keyframes therefore end in the axis
values that the target records. A straight motion forces the configuration that it starts from only
on its target, while its substeps take the closest branch; the two agree where the last keyframe
still has that configuration and no arm axis has come half a turn away from the start
(`compile_ends_motions`).
-/

set_option autoImplicit false
set_option relaxedAutoImplicit false

namespace Toolpath

/-! ### Rigid targets -/

theorem Target.Rigid.withConfiguration {target : Target ℝ} (h : target.Rigid)
    (configuration : Option Configuration) : (target.withConfiguration configuration).Rigid := by
  cases hgoal : target.goal with
  | joints values =>
    rw [Target.withConfiguration, hgoal]
    exact h
  | cartesian pose forced motion =>
    rw [Target.withConfiguration, hgoal]
    refine ⟨fun hother ↦ ?_, h.frame, h.tool⟩
    cases hother
    exact h.goal hgoal

theorem Cell.survivesPreparation_rigid (cell : Cell ℝ) :
    SurvivesPreparation cell fun _ target ↦ target.Rigid where
  external := fun _ _ h ↦ ⟨h.goal, h.frame, h.tool⟩
  configuration := fun _ _ h ↦ h.withConfiguration none
  relabel := fun _ _ _ h ↦ ⟨h.goal, h.frame, h.tool⟩
  anchor := by
    intro index target solution h
    unfold anchorTarget
    dsimp only
    split_ifs
    · refine ⟨fun hgoal ↦ ?_, h.frame, h.tool⟩
      cases hgoal
    · exact h

theorem Step.rigid_endTargets {next : Step ℝ} (h : ∀ target ∈ next.targets, target.Rigid)
    (previous : Step ℝ) : ∀ target ∈ next.endTargets previous, target.Rigid := by
  intro target htarget
  obtain ⟨index, hindex⟩ := List.mem_iff_getElem?.mp htarget
  rw [endTargets, List.getElem?_zipWith_eq_some] at hindex
  obtain ⟨waypoint, before, hwaypoint, _, rfl⟩ := hindex
  have hrigid := h waypoint.target (List.mem_map_of_mem (List.mem_of_getElem? hwaypoint))
  split_ifs
  · exact hrigid.withConfiguration _
  · exact hrigid

section Program

variable {cell : Cell ℝ} {toolpaths : List (List (Target ℝ))} {stepSize : ℝ} {count : Nat}
  {first : Step ℝ} {rest : List (Step ℝ)} {solutions : List (Solution ℝ)}
  {prepared : PreparedProgram ℝ} {journey : Journey ℝ}

theorem Stages.rigid_prepared
    (h : Stages cell toolpaths stepSize count first rest solutions prepared journey)
    (htargets : ∀ toolpath ∈ toolpaths, ∀ target ∈ toolpath, target.Rigid) :
    ∀ step ∈ prepared.first :: prepared.rest, ∀ target ∈ step.targets, target.Rigid := by
  intro step hstep target htarget
  obtain ⟨index, hindex⟩ := List.mem_iff_getElem?.mp htarget
  exact h.eachTarget cell.survivesPreparation_rigid
    (fun _ toolpath htoolpath ↦ htargets toolpath (List.mem_of_getElem? htoolpath)) step hstep index
    target hindex

/-- Whatever a motion starts from has rigid planes and frames. -/
theorem Stages.rigid_leg
    (h : Stages cell toolpaths stepSize count first rest solutions prepared journey)
    (hcell : cell.Rigid) (htargets : ∀ toolpath ∈ toolpaths, ∀ target ∈ toolpath, target.Rigid)
    {place : Nat} {before next : Step ℝ} {motion : Travel ℝ}
    (hleg : Leg cell stepSize prepared journey place before next motion) :
    ∀ solution ∈ before.solutions, solution.Rigid ∧ solution.frame.Rigid := by
  rcases hleg.solved with ⟨hfirst, _⟩ | ⟨earlier, other, hother, _, hsolve⟩
  · have hsolved := h.prepares.solutions_first (h.length_waypoints first List.mem_cons_self)
    have hauthored := eachTarget_of_mem_stepsOf (P := fun _ target ↦ target.Rigid) h.length
      fun _ toolpath htoolpath ↦ htargets toolpath (List.mem_of_getElem? htoolpath)
    rw [h.steps, List.forall_mem_cons] at hauthored
    have hfitted : (first.mapTargets (fitExternal cell)).EachTarget fun _ target ↦ target.Rigid :=
      hauthored.1.mapTargets fun _ _ hrigid ↦ ⟨hrigid.goal, hrigid.frame, hrigid.tool⟩
    rw [hfirst, hsolved]
    refine hcell.of_solve (fun target htarget ↦ ?_) h.prepares.solve
    obtain ⟨index, hindex⟩ := List.mem_iff_getElem?.mp htarget
    exact hfitted index target hindex
  · have hrigid := h.rigid_prepared htargets other (List.mem_cons_of_mem _ hother)
    exact hcell.of_solve (Step.rigid_endTargets hrigid earlier) hsolve

end Program

/-! ### The elbow on the way -/

theorem Target.exists_goal_of_isLinear {target : Target ℝ} (h : target.isLinear = true) :
    ∃ pose forced, target.goal = .cartesian pose forced .linear := by
  rw [isLinear] at h
  cases hgoal : target.goal with
  | joints values =>
    rw [hgoal] at h
    cases h
  | cartesian pose forced motion =>
    rw [hgoal] at h
    cases motion with
    | joint => cases h
    | linear => exact ⟨pose, forced, rfl⟩

theorem Step.getElem?_joints {step : Step ℝ} {index : Nat} {solution : Solution ℝ}
    (h : step.solutions[index]? = some solution) : step.joints[index]? = some solution.joints := by
  rw [joints_eq, List.getElem?_map, h, Option.map_some]

section Elbow

variable {cell : Cell ℝ} {previous next : Step ℝ} {divisions : Nat} {index : Nat} {group : Group ℝ}
  {target : Target ℝ}

theorem SolvedFrom.redundancy_eq {number : Nat} {before : Step ℝ} {substep : Substep ℝ}
    (h : SolvedFrom cell previous next divisions number before substep)
    (hbefore : before.Filled cell) (hgroup : cell.groups[index]? = some group)
    (htarget : next.targets[index]? = some target) (hlinear : target.isLinear = true)
    {start held : Solution ℝ} (hstart : before.solutions[index]? = some start)
    (hheld : substep.step.solutions[index]? = some held) :
    group.arm.solver.redundancy (held.joints.take group.arm.axisCount) =
      group.arm.solver.redundancy (start.joints.take group.arm.axisCount) := by
  obtain ⟨hcount, hframes⟩ := Cell.checked_of_solve h.solve
  have hclean := Step.faults_of_mem_solutions h.faultless (List.mem_of_getElem? hheld)
  obtain ⟨filled, hfilled, hlength⟩ := hbefore index group hgroup
  obtain rfl := Option.some.inj (hstart.symm.trans hfilled)
  obtain ⟨_, asked, coupled, hsame, hasked, rfl, _⟩ :=
    Cell.exists_solve_of_getElem? hcount hframes h.solve hheld
  obtain rfl := Option.some.inj (hgroup.symm.trans hsame)
  have hjoints : (some before.joints).bind (·[index]?) = some start.joints :=
    Step.getElem?_joints hstart
  rw [h.targets] at hasked
  obtain ⟨waypoint, _, hwaypoint, _, rfl⟩ := Step.exists_between_of_getElem? hasked
  rw [Step.targets, List.getElem?_map, hwaypoint, Option.map_some, Option.some_inj] at htarget
  obtain ⟨pose, forced, hgoal⟩ := Target.exists_goal_of_isLinear (htarget ▸ hlinear)
  rw [hjoints] at hclean ⊢
  rw [Group.take_joints_solve]
  refine Arm.redundancy_solve (Waypoint.goal_between_linear hgoal _ _ _)
    (Group.faults_armSolution hclean) ?_
  rw [List.length_take, hlength]
  exact Nat.min_eq_left (Nat.le_add_right _ _)

/-- The elbow stays where it was at the start. -/
theorem redundancy_of_substepsFrom {count number : Nat} {last : Step ℝ}
    {substeps : List (Substep ℝ)} {faults : List ProgramFault}
    (hsubsteps : substepsFrom cell previous next divisions count number last last.totalTime =
      .ok (substeps, faults))
    (hcount : next.waypoints.length = cell.groups.length) (hlast : last.Filled cell)
    (hgroup : cell.groups[index]? = some group) (htarget : next.targets[index]? = some target)
    (hlinear : target.isLinear = true) {start : Solution ℝ}
    (hstart : last.solutions[index]? = some start) {place : Nat} :
    ∀ {step : Step ℝ} {held : Solution ℝ},
      (last :: substeps.map Substep.step)[place]? = some step →
      step.solutions[index]? = some held →
        group.arm.solver.redundancy (held.joints.take group.arm.axisCount) =
          group.arm.solver.redundancy (start.joints.take group.arm.axisCount) := by
  induction place with
  | zero =>
    intro step held hstep hheld
    obtain rfl := Option.some.inj hstep
    obtain rfl := Option.some.inj (hstart.symm.trans hheld)
    rfl
  | succ place ih =>
    -- Each substep starts from the one before it, which has the elbow of the start already.
    intro step held hstep hheld
    rw [List.getElem?_cons_succ, List.getElem?_map] at hstep
    obtain ⟨substep, hsubstep, rfl⟩ := Option.map_eq_some_iff.mp hstep
    obtain ⟨before, hbefore, hsolved⟩ := exists_solvedFrom hcount hsubsteps hsubstep
    have hfilled := filled_of_substepsFrom hsubsteps hcount hlast before
      (List.mem_of_getElem? hbefore)
    obtain ⟨between, hbetween, _⟩ := hfilled index group hgroup
    rw [hsolved.redundancy_eq hfilled hgroup htarget hlinear hbetween hheld, ih hbefore hbetween]

end Elbow

/-! ### The last moment of a motion -/

namespace Waypoint

theorem external_between_self (waypoint previous : Waypoint ℝ) (armAxes : Nat) {whole : Nat}
    (hwhole : whole ≠ 0) : (waypoint.between previous armAxes (.ofParts whole whole)).external =
      waypoint.solution.joints.drop armAxes :=
  Moment.interpolateAll_ofParts_self hwhole _ _

theorem goal_between_self {waypoint : Waypoint ℝ} (hjoint : waypoint.target.isLinear = false)
    (previous : Waypoint ℝ) (armAxes : Nat) {whole : Nat} (hwhole : whole ≠ 0) :
    (waypoint.between previous armAxes (.ofParts whole whole)).goal =
      .joints (waypoint.solution.joints.take armAxes) := by
  rw [goal_between_joint hjoint, Moment.interpolateAll_ofParts_self hwhole]

theorem rigid_previousPlane {waypoint previous : Waypoint ℝ}
    (hframe : waypoint.solution.frame.Rigid)
    (hprevious : previous.solution.Rigid ∧ previous.solution.frame.Rigid) :
    (waypoint.previousPlane previous).Rigid := by
  refine Pose.Rigid.mul (Pose.Rigid.inverse ?_) hprevious.1.tcp
  split_ifs
  · exact hprevious.2
  · exact hframe

end Waypoint

theorem Step.getElem?_endTargets {next previous : Step ℝ} {index : Nat} {target : Target ℝ}
    {start : Solution ℝ} (htarget : next.targets[index]? = some target)
    (hstart : previous.solutions[index]? = some start) :
    (next.endTargets previous)[index]? = some (if target.isLinear then
      target.withConfiguration (some start.configuration) else target) := by
  rw [targets, List.getElem?_map, Option.map_eq_some_iff] at htarget
  rw [solutions, List.getElem?_map, Option.map_eq_some_iff] at hstart
  obtain ⟨waypoint, hwaypoint, rfl⟩ := htarget
  obtain ⟨before, hbefore, rfl⟩ := hstart
  rw [endTargets, List.getElem?_zipWith_eq_some]
  exact ⟨waypoint, before, hwaypoint, hbefore, rfl⟩

/-- What a group is asked for at the last moment of a motion from `start` to `recorded`, having been
asked for `asked` to find the end of the motion. -/
structure Repeats (armAxes : Nat) (start recorded : Solution ℝ) (target asked found : Target ℝ) :
    Prop where
  tool : found.tool = asked.tool
  frame : found.frame = asked.frame
  external : found.external = recorded.joints.drop armAxes
  joint : target.isLinear = false → found.goal = .joints (recorded.joints.take armAxes)
  linear : target.isLinear = true → ∃ pose reached,
    asked.goal = .cartesian pose (some start.configuration) .linear ∧
    found.goal = .cartesian reached none .linear ∧ reached.Same pose

theorem Waypoint.repeats {waypoint previous : Waypoint ℝ} (htarget : waypoint.target.Rigid)
    (hprevious : (waypoint.previousPlane previous).Rigid) (armAxes : Nat) {whole : Nat}
    (hwhole : whole ≠ 0) :
    Repeats armAxes previous.solution waypoint.solution waypoint.target
      (if waypoint.target.isLinear then
        waypoint.target.withConfiguration (some previous.solution.configuration)
      else waypoint.target) (waypoint.between previous armAxes (.ofParts whole whole)) := by
  obtain ⟨goal, external, hbetween⟩ :=
    Step.exists_between_eq waypoint previous armAxes (.ofParts whole whole)
  have hexternal := external_between_self waypoint previous armAxes hwhole
  cases hlinear : waypoint.target.isLinear with
  | false =>
    refine ⟨?_, ?_, hexternal, fun _ ↦ goal_between_self hlinear previous armAxes hwhole,
      fun hother ↦ absurd (hlinear.symm.trans hother) Bool.false_ne_true⟩
    · rw [hbetween]
      rfl
    · rw [hbetween]
      rfl
  | true =>
    obtain ⟨pose, forced, hgoal⟩ := Target.exists_goal_of_isLinear hlinear
    have hforced : waypoint.target.withConfiguration (some previous.solution.configuration) =
        { waypoint.target with
          goal := .cartesian pose (some previous.solution.configuration) .linear } := by
      rw [Target.withConfiguration, hgoal]
    have hsame := Moment.same_interpolatePose_ofParts_self hwhole hprevious (htarget.goal hgoal)
    rw [if_pos rfl, hforced]
    refine ⟨?_, ?_, hexternal,
      fun hother ↦ absurd (hother.symm.trans hlinear) Bool.false_ne_true,
      fun _ ↦ ⟨pose, _, rfl, goal_between_linear hgoal previous armAxes _, hsame⟩⟩
    · rw [hbetween]
    · rw [hbetween]

/-- The last keyframe of a straight motion of the group still has the configuration that the motion
starts from, and no arm axis of it has come half a turn away from there. -/
def Step.Steady (cell : Cell ℝ) (before kept final : Step ℝ) (index : Nat) : Prop :=
  ∀ (group : Group ℝ) (target : Target ℝ) (start reached : Solution ℝ),
    cell.groups[index]? = some group → kept.targets[index]? = some target →
    before.solutions[index]? = some start → final.solutions[index]? = some reached →
    target.isLinear = true → reached.configuration = start.configuration ∧
      Angle.Near (reached.joints.take group.arm.axisCount)
        (start.joints.take group.arm.axisCount)

/-- How a group of the cell ends its motion from the step `before` to the target `kept`, the last
keyframe being `final`. -/
structure Step.Ending (cell : Cell ℝ) (before kept final : Step ℝ) (index : Nat) (group : Group ℝ)
    (target : Target ℝ) (start recorded reached : Solution ℝ) : Prop where
  stands : cell.groups[index]? = some group
  asks : kept.targets[index]? = some target
  starts : before.solutions[index]? = some start
  records : kept.solutions[index]? = some recorded
  ends : final.solutions[index]? = some reached
  externals : reached.joints.drop group.arm.axisCount = recorded.joints.drop group.arm.axisCount
  joint : target.isLinear = false → reached.joints = recorded.joints
  /-- The target of a straight motion keeps the configuration that the motion starts from. -/
  linear : target.isLinear = true → recorded.configuration = start.configuration
  /-- The group is steady, and so are the groups that carry its frame. -/
  steady : (∀ other, Relation.ReflTransGen (Cell.Follows kept.targets) index other →
    Step.Steady cell before kept final other) →
      reached.joints = recorded.joints ∧ reached.planes = recorded.planes

/-- The last substep of a motion whose end is solved to `solutions`, from the substep `last`. -/
structure Closes (cell : Cell ℝ) (previous next : Step ℝ) (solutions : List (Solution ℝ))
    (divisions : Nat) (last : Step ℝ) (final : Substep ℝ) : Prop where
  rigid : cell.Rigid
  rigid_next : ∀ target ∈ next.targets, target.Rigid
  rigid_previous : ∀ solution ∈ previous.solutions, solution.Rigid ∧ solution.frame.Rigid
  count : next.waypoints.length = cell.groups.length
  length : previous.waypoints.length = next.waypoints.length
  solve : cell.solve (next.endTargets previous) (some previous.joints) = .ok solutions
  reached : (arrivedAt previous next solutions).faults = []
  divided : divisions ≠ 0
  solved : SolvedFrom cell previous (arrivedAt previous next solutions) divisions divisions last
    final
  filled : last.Filled cell
  /-- An arm with an axis too many has kept its elbow on the way. -/
  elbow : ∀ {index : Nat} {group : Group ℝ} {target : Target ℝ} {start held : Solution ℝ},
    cell.groups[index]? = some group → next.targets[index]? = some target →
    target.isLinear = true → previous.solutions[index]? = some start →
    last.solutions[index]? = some held →
      group.arm.solver.redundancy (held.joints.take group.arm.axisCount) =
        group.arm.solver.redundancy (start.joints.take group.arm.axisCount)

namespace Closes

variable {cell : Cell ℝ} {previous next : Step ℝ} {solutions : List (Solution ℝ)} {divisions : Nat}
  {last : Step ℝ} {final : Substep ℝ}
  (h : Closes cell previous next solutions divisions last final)

include h

theorem solutions_arrivedAt : (arrivedAt previous next solutions).solutions = solutions :=
  Travelled.solutions_arrivedAt h.count h.solve

theorem targets_arrivedAt : (arrivedAt previous next solutions).targets = next.targets :=
  Travelled.targets_arrivedAt h.count h.solve

/-- The groups are asked for the end of the motion a second time. -/
theorem exists_repeats {index : Nat} (hindex : index < cell.groups.length) :
    ∃ target start recorded asked found, next.targets[index]? = some target ∧
      previous.solutions[index]? = some start ∧ solutions[index]? = some recorded ∧
      (next.endTargets previous)[index]? = some asked ∧ final.step.targets[index]? = some found ∧
      Repeats (cell.armAxisCount index) start recorded target asked found := by
  have hlength := h.solved.targets ▸ (Cell.length_of_solve h.solved.solve).1
  have hfound := List.getElem?_eq_getElem (hlength ▸ hindex)
  obtain ⟨waypoint, before, hwaypoint, hbefore, heq⟩ := Step.exists_between_of_getElem? hfound
  rw [heq, ← h.solved.targets] at hfound
  have htarget : next.targets[index]? = some waypoint.target :=
    h.targets_arrivedAt ▸ Step.getElem?_targets hwaypoint
  have hrecorded : solutions[index]? = some waypoint.solution :=
    h.solutions_arrivedAt ▸ Step.getElem?_solutions hwaypoint
  have hstart := Step.getElem?_solutions hbefore
  have hframe := (h.rigid.of_solve (Step.rigid_endTargets h.rigid_next previous) h.solve _
    (List.mem_of_getElem? hrecorded)).2
  have hplane : (waypoint.previousPlane before).Rigid :=
    Waypoint.rigid_previousPlane hframe (h.rigid_previous _ (List.mem_of_getElem? hstart))
  exact ⟨_, _, _, _, _, htarget, hstart, hrecorded, Step.getElem?_endTargets htarget hstart, hfound,
    Waypoint.repeats (h.rigid_next _ (List.mem_of_getElem? htarget)) hplane _ h.divided⟩

theorem faults_of_mem : ∀ solution ∈ solutions, solution.faults = [] := by
  intro solution hsolution
  rw [← h.solutions_arrivedAt] at hsolution
  exact Step.faults_of_mem_solutions h.reached hsolution

theorem map_frame_targets :
    final.step.targets.map Target.frame = (next.endTargets previous).map Target.frame := by
  have harrived : (arrivedAt previous next solutions).waypoints.length = next.waypoints.length := by
    rw [← Step.length_targets, h.targets_arrivedAt, Step.length_targets]
  rw [h.solved.targets, Step.map_targets_between (fun _ _ _ ↦ rfl) cell _
    (h.length.trans harrived.symm), h.targets_arrivedAt,
    Step.map_targets_endTargets Target.frame_withConfiguration h.length.ge]

/-! The step `kept` is the target of the motion; at `keyframe` stands the last keyframe of it. -/

variable {kept keyframe : Step ℝ} (hkept : kept.targets = next.targets)
  (hkeyframe : keyframe.solutions = final.step.solutions) {index : Nat}

include hkept hkeyframe

/-- On the same plane of its carrier a steady group ends where its target is. -/
theorem agree_of_steady
    (hshares : cell.SharesCarrier (next.endTargets previous) final.step.targets
      (some previous.joints) (some last.joints) solutions final.step.solutions index)
    (hsteady : Step.Steady cell previous kept keyframe index) :
    ∃ recorded reached, solutions[index]? = some recorded ∧
      final.step.solutions[index]? = some reached ∧ reached.joints = recorded.joints ∧
      reached.planes = recorded.planes := by
  obtain ⟨group, asked, found, coupled, hgroup, hasked, hfound, hrecorded, hreached⟩ := hshares
  obtain ⟨hindex, _⟩ := List.getElem?_eq_some_iff.mp hgroup
  obtain ⟨target, start, _, _, _, htarget, hstart, hsame, hasked', hfound', hrepeats⟩ :=
    h.exists_repeats hindex
  obtain rfl := Option.some.inj (hasked.symm.trans hasked')
  obtain rfl := Option.some.inj (hfound.symm.trans hfound')
  obtain rfl := Option.some.inj (hrecorded.symm.trans hsame)
  obtain ⟨held, hheld, _⟩ := h.filled index group hgroup
  have hbefore : (some previous.joints).bind (·[index]?) = some start.joints :=
    Step.getElem?_joints hstart
  have hlast : (some last.joints).bind (·[index]?) = some held.joints := Step.getElem?_joints hheld
  rw [hbefore] at hrecorded hrepeats
  rw [hlast] at hreached
  rw [Cell.armAxisCount_of_getElem? hgroup] at hrepeats
  have hclean := h.faults_of_mem _ (List.mem_of_getElem? hrecorded)
  have hfaultless :=
    Step.faults_of_mem_solutions h.solved.faultless (List.mem_of_getElem? hreached)
  have hjoints : (group.solve index found coupled (some held.joints) cell.base).joints =
      (group.solve index asked coupled (some start.joints) cell.base).joints := by
    -- Only a straight motion asks for a pose again, which several axis values would reach.
    cases hlinear : target.isLinear with
    | false =>
      exact Group.joints_solve_of_joints hclean (hrepeats.joint hlinear) hrepeats.external
    | true =>
      obtain ⟨pose, reached, hgoal, hother, hpose⟩ := hrepeats.linear hlinear
      obtain ⟨hconfiguration, hnear⟩ := hsteady group target start _ hgroup (hkept ▸ htarget) hstart
        (hkeyframe ▸ hreached) hlinear
      have hforced : (group.solve index asked coupled (some start.joints) cell.base).configuration =
          start.configuration := Arm.configuration_solve_forced hgoal _
      exact Group.joints_solve_of_near hgoal hother hpose hrepeats.tool hrepeats.frame
        hrepeats.external (h.elbow hgroup htarget hlinear hstart hheld) hclean hfaultless
        (hconfiguration.trans hforced.symm) hnear
  exact ⟨_, _, hrecorded, hreached, hjoints, Group.planes_solve_of_joints
    (Group.solveMechanisms_external hclean hrepeats.external) (congrArg Tool.tcp hrepeats.tool)
    hjoints⟩

/-- Along the couplings of steady groups every group is solved on the same plane of its carrier. -/
theorem sharesCarrier
    (hindex : index < cell.groups.length)
    (hsteady : ∀ other, Relation.TransGen (Cell.Follows kept.targets) index other →
      Step.Steady cell previous kept keyframe other) :
    cell.SharesCarrier (next.endTargets previous) final.step.targets
      (some previous.joints) (some last.joints) solutions final.step.solutions index := by
  obtain ⟨hcount, hframes⟩ := Cell.checked_of_solve h.solve
  have hfollows : Cell.Follows (next.endTargets previous) = Cell.Follows kept.targets := by
    rw [hkept]
    exact Cell.follows_congr (Step.couplings_endTargets h.length)
  have hafter : (cell.solveAfter (next.endTargets previous) (some previous.joints)
      cell.groups.length index).isSome := by
    obtain ⟨hsolutions, hall⟩ := (Cell.solve_eq_ok_iff cell hcount hframes _).mp h.solve
    rw [hall index hindex, List.getElem?_eq_getElem (hsolutions ▸ hindex)]
    rfl
  refine Cell.sharesCarrier_of_solve (P := Step.Steady cell previous kept keyframe)
    h.map_frame_targets h.solve h.solved.solve (fun other hother hshares ↦ ?_) hindex
    hafter (hfollows ▸ hsteady)
  obtain ⟨recorded, reached, hrecorded, hreached, _, hplanes⟩ :=
    h.agree_of_steady hkept hkeyframe hshares hother
  rw [hrecorded, hreached, Option.map_some, Option.map_some, hplanes]

theorem exists_ending (hsolutions : kept.solutions = solutions)
    (hindex : index < cell.groups.length) :
    ∃ group target start recorded reached,
      Step.Ending cell previous kept keyframe index group target start recorded reached := by
  obtain ⟨target, start, recorded, asked, found, htarget, hstart, hrecorded, hasked, hfound,
    hrepeats⟩ := h.exists_repeats hindex
  have hreached := List.getElem?_eq_getElem
    ((Cell.length_of_solve h.solved.solve).2 ▸ hindex : index < final.step.solutions.length)
  have hclean := h.faults_of_mem _ (List.mem_of_getElem? hrecorded)
  obtain ⟨hcount, hframes⟩ := Cell.checked_of_solve h.solve
  obtain ⟨hlastCount, hlastFrames⟩ := Cell.checked_of_solve h.solved.solve
  obtain ⟨group, _, coupled, hgroup, hgiven, hsolved, _⟩ :=
    Cell.exists_solve_of_getElem? hcount hframes h.solve hrecorded
  obtain rfl := Option.some.inj (hasked.symm.trans hgiven)
  obtain ⟨_, _, carried, hheld, hasked', hagain, _⟩ :=
    Cell.exists_solve_of_getElem? hlastCount hlastFrames h.solved.solve hreached
  obtain rfl := Option.some.inj (hgroup.symm.trans hheld)
  obtain rfl := Option.some.inj (hfound.symm.trans hasked')
  rw [Cell.armAxisCount_of_getElem? hgroup] at hrepeats
  obtain rfl := hsolved
  have hends := (congrArg (·[index]?) hkeyframe).trans hreached
  refine ⟨group, target, start, _, _, hgroup, hkept ▸ htarget, hstart, hsolutions ▸ hrecorded,
    hends, ?_, fun hjoint ↦ ?_, fun hlinear ↦ ?_, fun hsteady ↦ ?_⟩
  · rw [← hagain, Group.drop_joints_solve, Group.drop_joints_solve,
      Group.solveMechanisms_external hclean hrepeats.external]
  · rw [← hagain, Group.joints_solve_of_joints hclean (hrepeats.joint hjoint) hrepeats.external]
  · obtain ⟨pose, _, hgoal, _, _⟩ := hrepeats.linear hlinear
    exact Arm.configuration_solve_forced hgoal _
  · -- The carriers of a group are steady here too, so they end on the planes that they record.
    have hshares := h.sharesCarrier hkept hkeyframe hindex
      fun other hother ↦ hsteady other hother.to_reflTransGen
    obtain ⟨_, _, hrecorded', hreached', hsame⟩ :=
      h.agree_of_steady hkept hkeyframe hshares (hsteady index .refl)
    obtain rfl := Option.some.inj (hrecorded.symm.trans hrecorded')
    obtain rfl := Option.some.inj (hreached.symm.trans hreached')
    exact hsame

end Closes

/-! ### The keyframes of a motion -/

theorem Travelled.exists_closes {cell : Cell ℝ} {stepSize : ℝ} {previous next : Step ℝ}
    {motion : Travel ℝ} (h : Travelled cell stepSize previous next previous.totalTime motion)
    (hfaults : motion.faults = []) (hcount : next.waypoints.length = cell.groups.length)
    (hlength : previous.waypoints.length = next.waypoints.length)
    (hprevious : previous.Filled cell) (hcell : cell.Rigid)
    (hrigid : ∀ target ∈ next.targets, target.Rigid)
    (hbefore : ∀ solution ∈ previous.solutions, solution.Rigid ∧ solution.frame.Rigid) :
    ∃ divisions last final keyframe,
      Closes cell previous next motion.target.solutions divisions last final ∧
      motion.keyframes.getLast? = some keyframe ∧
      keyframe.solutions = final.step.solutions := by
  obtain ⟨solutions, divisions, initial, final, hsolve, hreached, hsubsteps, rfl⟩ :=
    h.exists_completed hfaults
  have hdivisions := length_of_substepsFrom hsubsteps
  rw [List.length_append, List.length_singleton] at hdivisions
  have harrived := length_arrivedAt hcount hsolve
  obtain ⟨last, hlast, hsolved⟩ :=
    Toolpath.exists_solvedFrom harrived hsubsteps List.getElem?_concat_length
  rw [Nat.add_comm, hdivisions] at hsolved
  obtain ⟨keyframe, hkeyframe, hsame⟩ := exists_getLast?_completeTravel cell
    (arrivedAt previous next solutions) divisions previous.totalTime
    ((arrivedAt previous next solutions).endWarnings previous) initial final
  refine ⟨divisions, last, final, keyframe, ?_, hkeyframe, hsame⟩
  rw [solutions_completeTravel, solutions_arrivedAt hcount hsolve]
  refine ⟨hcell, hrigid, hbefore, hcount, hlength, hsolve, hreached,
    hdivisions ▸ Nat.succ_ne_zero _, hsolved,
    filled_of_substepsFrom hsubsteps harrived hprevious last (List.mem_of_getElem? hlast), ?_⟩
  intro index group target start held hgroup htarget hlinear hstart hheld
  rw [← targets_arrivedAt hcount hsolve] at htarget
  exact redundancy_of_substepsFrom hsubsteps harrived hprevious hgroup htarget hlinear hstart hlast
    hheld

/-! ### Programs -/

/-- How a program ends the motion to the target `kept`, which stands at the given place. -/
structure Program.EndsMotion (program : Program ℝ) (place : Nat) (kept final : Step ℝ) : Prop where
  last : (program.keyframes.filter (·.index = place)).getLast? = some final
  /-- The first target is a keyframe itself. -/
  start : place = 0 → final = kept
  motion : ∀ {earlier : Nat}, place = earlier + 1 → ∃ before,
    program.targets[earlier]? = some before ∧ ∀ index < program.cell.groups.length,
      ∃ group target start recorded reached,
        Step.Ending program.cell before kept final index group target start recorded reached

namespace Program.Passage

variable {program : Program ℝ} {length : ℝ} {before kept final : Step ℝ}
  (h : program.Passage length before kept)

include h

/-- The arm that passes has its configuration and its axis values all the way. -/
theorem steady (hfinal : OverSlide length final.solutions) (index : Nat) :
    Step.Steady (slideCell length) before kept final index := by
  intro group target start reached hgroup _ hstart hreached _
  obtain ⟨begun, hbegun, hover⟩ := h.begins.exists_solutions
  obtain ⟨value, _, solution, hsolution, hheld⟩ := hfinal
  rw [hbegun] at hstart
  rw [hsolution] at hreached
  obtain rfl := List.mem_singleton.mp (List.mem_of_getElem? hstart)
  obtain rfl := List.mem_singleton.mp (List.mem_of_getElem? hreached)
  obtain rfl := List.mem_singleton.mp (List.mem_of_getElem? hgroup)
  refine ⟨hheld.configuration.trans hover.configuration.symm, ?_⟩
  rw [hheld.joints, hover.joints]
  exact Angle.near_self RedundantArm.rightAngles

/-- It ends in the axis values that the target records. -/
theorem joints_of_endsMotion {first second : Step ℝ} {moving : List (Step ℝ)}
    (hkeyframes : program.PassageKeyframes length kept first second moving)
    (hends : program.EndsMotion 1 kept final) : final.joints = kept.joints := by
  obtain ⟨hmem, hindex⟩ := List.mem_filter.mp (List.mem_of_getLast? hends.last)
  have hfinal := hkeyframes.overSlide hmem (of_decide_eq_true hindex)
  obtain ⟨_, _, _, _, _, _, _, hcell, _⟩ := exists_stages h.compiled
  obtain ⟨earlier, hearlier, hgroups⟩ := hends.motion rfl
  obtain rfl := Option.some.inj (hearlier.symm.trans h.start)
  rw [hcell] at hgroups
  obtain ⟨_, _, _, recorded, reached, hending⟩ := hgroups 0 Nat.zero_lt_one
  have hjoints := (hending.steady fun other _ ↦ h.steady hfinal other).1
  obtain ⟨value, _, solution, hsolution, _⟩ := hfinal
  obtain ⟨stored, hstored, _⟩ := h.passes.over.exists_solutions
  have hreached := hending.ends
  have hrecorded := hending.records
  rw [hsolution] at hreached
  rw [hstored] at hrecorded
  rw [final.joints_eq, kept.joints_eq, hsolution, hstored, List.map_singleton, List.map_singleton,
    Option.some.inj hreached, Option.some.inj hrecorded, hjoints]

end Program.Passage

/-- In a cell of rigid poses, the keyframes that lead to a target without faults end in the external
axis values that the target records, and on a joint motion in its arm axis values. A straight motion
ends in them where its last keyframe has the configuration that the motion starts from, and no arm
axis has come half a turn away from there. -/
theorem compile_ends_motions {name : String} {cell : Cell ℝ} (hcell : cell.Rigid)
    {toolpaths : List (List (Target ℝ))}
    (htargets : ∀ toolpath ∈ toolpaths, ∀ target ∈ toolpath, target.Rigid) {stepSize : ℝ}
    {program : Program ℝ} (h : Program.compile name cell toolpaths stepSize = .ok program)
    {place : Nat} {kept : Step ℝ} (hkept : program.targets[place]? = some kept)
    (hnone : ∀ fault ∈ program.faults, fault.target ≠ place) :
    ∃ final, program.EndsMotion place kept final := by
  obtain ⟨count, first, rest, solutions, prepared, journey, hstages, rfl⟩ := exists_stages_eq h
  cases place with
  | zero =>
    exact ⟨kept, hstages.getLast?_keyframes_start hkept hnone, fun _ ↦ rfl,
      fun heq ↦ absurd heq.symm (Nat.succ_ne_zero _)⟩
  | succ place =>
    obtain ⟨before, next, motion, rfl, hleg⟩ := hstages.exists_leg hkept
    have hfilled : before.Filled cell := by
      obtain ⟨_, _, hsolve⟩ := hstages.exists_solve_leg hleg
      exact Step.filled_of_solve hsolve
    have hnext := hstages.rigid_prepared htargets next
      (List.mem_cons_of_mem _ (List.mem_of_getElem? hleg.stop))
    have hlength := (hstages.length_waypoints_leg hleg).trans hleg.count.symm
    obtain ⟨divisions, last, final, keyframe, hcloses, hkeyframe, hsame⟩ :=
      hleg.travelled.exists_closes (hleg.faults_motion hnone) hleg.count hlength hfilled hcell hnext
        (hstages.rigid_leg hcell htargets hleg)
    have htask := (Prod.mk.inj (hleg.travelled.task hleg.count)).2
    refine ⟨keyframe, ?_, fun hzero ↦ absurd hzero (Nat.succ_ne_zero _), fun heq ↦ ?_⟩
    · rw [hleg.keyframes, hkeyframe]
    · obtain rfl := Nat.succ.inj heq
      exact ⟨before, hleg.start, fun index hindex ↦
        hcloses.exists_ending htask hsame rfl hindex⟩

theorem compile_ends_passage : ∃ program before kept final,
    Program.compile "Passage" (slideCell 4) (passage 4) 1 = .ok program ∧
    program.targets[0]? = some before ∧ program.targets[1]? = some kept ∧
    (∀ fault ∈ program.faults, fault.target ≠ 1) ∧
    (∀ target ∈ kept.targets, target.isLinear = true) ∧ kept.divisions = 4 ∧
    program.EndsMotion 1 kept final ∧ final.joints = kept.joints := by
  obtain ⟨program, before, kept, _, _, _, hpassage, hkeyframes⟩ :=
    exists_passage_keyframes (by norm_num : (0 : ℝ) ≤ 4)
  have hnone := hpassage.fault_target 1
  obtain ⟨final, hends⟩ := compile_ends_motions (rigid_slideCell 4) (rigid_passage 4)
    hpassage.compiled hpassage.stop hnone
  exact ⟨program, before, kept, final, hpassage.compiled, hpassage.start, hpassage.stop, hnone,
    hpassage.isLinear, divisions_passage_four hpassage, hends,
    hpassage.joints_of_endsMotion hkeyframes hends⟩

end Toolpath
