import Toolpath.Proofs.Attributes
import Toolpath.Proofs.Exact.Arrival
import Toolpath.Proofs.Exact.Reach
import Toolpath.Proofs.Exact.Relocation

/-!
Where the motions of a program start. A straight motion is interpolated in the coordinates of its
frame, from the place where the previous target has the tool centre point. That place is taken in
the frame of the previous target where both targets share the frame, and in the frame of this target
at its end where they do not (`Waypoint.startFrame`). At the first moment of the motion the cell is
solved with the axis values of the previous target, so that the motion starts on the previous tool
centre point exactly where the frame stands on its start frame by then (`Waypoint.joins_iff`).

`Step.Continues` collects when it does. An uncoupled frame never moves. A frame that both targets
share is carried on by a mechanism as far as its axes, by the tool of a group that is asked for its
previous axis values as long as it keeps the tool, and by the tool of a group on a straight motion
if that motion starts where the previous one ended itself (`Departs.joins_of_continues`).
-/

set_option autoImplicit false
set_option relaxedAutoImplicit false

namespace Toolpath

/-! ### Where a solved frame stands -/

namespace Cell

variable {α : Type} [Scalar α] {cell : Cell α} {targets : List (Target α)}
  {previous : Option (List (List α))} {solutions : List (Solution α)} {index other : Nat}
  {target : Target α} {solution : Solution α}

/-- An uncoupled frame stands where its pose says. -/
theorem frame_of_uncoupled (hsolve : cell.solve targets previous = .ok solutions)
    (htarget : targets[index]? = some target) (hsolution : solutions[index]? = some solution)
    (hfree : target.frame.coupledGroup = none) : solution.frame = target.frame.pose := by
  obtain ⟨hcount, hframes⟩ := checked_of_solve hsolve
  obtain ⟨group, asked, coupled, _, hasked, rfl, _⟩ :=
    exists_solve_of_getElem? hcount hframes hsolve hsolution
  obtain rfl := Option.some.inj (htarget.symm.trans hasked)
  show Group.framePose target.frame index coupled _ = target.frame.pose
  rw [Group.framePose, hfree]

/-- A frame on a mechanism stands on the last plane of the mechanism, whichever group has it. -/
theorem frame_of_mechanism (hcomplete : cell.Complete)
    (hsolve : cell.solve targets previous = .ok solutions)
    (htarget : targets[index]? = some target) (hsolution : solutions[index]? = some solution)
    {place : Nat} (hcoupled : target.frame.coupledGroup = some other)
    (hplace : target.frame.coupledMechanism = some place) :
    ∃ carrier asked moved, cell.groups[other]? = some carrier ∧ targets[other]? = some asked ∧
      (Group.solveMechanisms cell.base carrier.externals asked.external)[place]? = some moved ∧
      solution.frame = moved.tcp * target.frame.pose := by
  obtain ⟨hcount, hframes⟩ := checked_of_solve hsolve
  have hsettled := settled_of_solve hcount hframes hsolve
  have hcheck := checkFrames_eq_ok_iff.mp hframes index target htarget
  have hother := lt_of_checkFrame hcheck hcoupled
  obtain ⟨carrier, hcarrier⟩ : ∃ carrier, cell.groups[other]? = some carrier :=
    ⟨_, List.getElem?_eq_getElem hother⟩
  obtain ⟨asked, hasked⟩ : ∃ asked, targets[other]? = some asked :=
    ⟨_, List.getElem?_eq_getElem (hcount ▸ hother)⟩
  have hlt := lt_of_checkFrame_mechanism hcheck hcoupled hplace hcarrier
  rw [← Group.length_solveMechanisms cell.base carrier.externals asked.external] at hlt
  obtain ⟨group, _, _, hgroup, hheld, _, _⟩ :=
    exists_solve_of_getElem? hcount hframes hsolve hsolution
  obtain rfl := Option.some.inj (htarget.symm.trans hheld)
  refine ⟨_, _, _, hcarrier, hasked, List.getElem?_eq_getElem hlt, ?_⟩
  by_cases hown : other = index
  · -- The group itself has the mechanism.
    subst hown
    have hentry := hsettled.alone hgroup htarget (.inr hcoupled)
    obtain rfl := Option.some.inj (hsolution.symm.trans hentry)
    obtain rfl := Option.some.inj (hgroup.symm.trans hcarrier)
    obtain rfl := Option.some.inj (htarget.symm.trans hasked)
    show Group.framePose target.frame other none _ = _
    simp only [Group.framePose, hcoupled, hplace, if_true, List.getElem?_map,
      List.getElem?_eq_getElem hlt, Option.map_some, Option.getD_some]
  · have hcarrying := List.getElem?_eq_getElem
      (hsettled.length_eq ▸ lt_of_checkFrame hcheck hcoupled : other < solutions.length)
    obtain ⟨hentry, hmoved⟩ := hsettled.onMechanism hgroup htarget hcoupled hown hplace hcarrier
      hasked hcarrying
    obtain ⟨moved, hplaced, htip⟩ := hmoved (hcomplete _ (List.mem_of_getElem? hcarrier))
    obtain rfl := Option.some.inj (hplaced.symm.trans (List.getElem?_eq_getElem hlt))
    obtain rfl := Option.some.inj (hsolution.symm.trans hentry)
    rw [htip]
    show Group.framePose target.frame index _ _ = _
    simp only [Group.framePose, hcoupled, hplace, if_neg hown, Option.map_some, Option.getD_some]

/-- A frame on the tool of another group stands on its last plane. -/
theorem frame_of_tool (hsolve : cell.solve targets previous = .ok solutions)
    (htarget : targets[index]? = some target) (hsolution : solutions[index]? = some solution)
    (hcoupled : target.frame.coupledGroup = some other)
    (hnone : target.frame.coupledMechanism = none) :
    ∃ carrying, solutions[other]? = some carrying ∧
      solution.frame = carrying.tcp * target.frame.pose := by
  obtain ⟨hcount, hframes⟩ := checked_of_solve hsolve
  have hsettled := settled_of_solve hcount hframes hsolve
  have hcheck := checkFrames_eq_ok_iff.mp hframes index target htarget
  have hlt := lt_of_checkFrame hcheck hcoupled
  have hne : other ≠ index := by
    rintro rfl
    simp [checkFrame, hcoupled, hnone, List.getElem?_eq_getElem hlt] at hcheck
  obtain ⟨group, _, _, hgroup, hheld, _, _⟩ :=
    exists_solve_of_getElem? hcount hframes hsolve hsolution
  obtain rfl := Option.some.inj (htarget.symm.trans hheld)
  have hcarrying := List.getElem?_eq_getElem (hsettled.length_eq ▸ hlt : other < solutions.length)
  obtain ⟨_, hentry⟩ := hsettled.onTool hgroup htarget hcoupled hne hnone hcarrying
  obtain rfl := Option.some.inj (hsolution.symm.trans hentry)
  refine ⟨_, hcarrying, ?_⟩
  show Group.framePose target.frame index _ _ = _
  simp only [Group.framePose, hcoupled, hnone, Option.map_some, Option.getD_some]

end Cell

/-! ### The tool centre point of a group -/

namespace Group

variable {group : Group ℝ} {index : Nat} {target : Target ℝ} {coupled : Option (Pose ℝ)}
  {previous : Option (List ℝ)} {parent pose : Pose ℝ} {forced : Option Configuration}
  {motion : Motion}

theorem tcp_solve (group : Group ℝ) (index : Nat) (target : Target ℝ) (coupled : Option (Pose ℝ))
    (previous : Option (List ℝ)) (parent : Pose ℝ) :
    (group.solve index target coupled previous parent).tcp =
      (group.armSolution index target coupled previous parent).tcp * target.tool.tcp := by
  rw [Solution.tcp, Group.solve, List.getLastD_concat]
  rfl

/-- Without faults the tool is on the target. -/
theorem same_tcp_solve (hgroup : group.Rigid) (hparent : parent.Rigid) (htarget : target.Rigid)
    (hframe : (group.solve index target coupled previous parent).frame.Rigid)
    (hgoal : target.goal = .cartesian pose forced motion)
    (hreproduces : group.arm.solver.Reproduces (Arm.flangeFor (group.mount target parent)
      (group.solve index target coupled previous parent).frame pose target.tool.tcp))
    (hfaults : (group.solve index target coupled previous parent).faults = []) :
    (group.solve index target coupled previous parent).tcp.Same
      ((group.solve index target coupled previous parent).frame * pose) := by
  rw [tcp_solve]
  exact Arm.same_tcp_solve (hgroup.mount hparent) hframe htarget hgoal hreproduces
    (faults_armSolution hfaults)

end Group

theorem Pose.same_mul_right_iff {a b c : Pose ℝ} (ha : a.Rigid) (hb : b.Rigid) (hc : c.Rigid) :
    (a * c).Same (b * c) ↔ a.Same b := by
  refine ⟨fun h ↦ ?_, fun h ↦ h.mul (.refl c)⟩
  have hundone := h.mul (.refl c.inverse)
  rwa [Pose.mul_assoc ha hc, Pose.mul_assoc hb hc, hc.mul_inverse, Pose.mul_one,
    Pose.mul_one] at hundone

/-! ### The first moment of a motion -/

namespace Waypoint

variable {waypoint previous : Waypoint ℝ}

/-- The frame of the target as the motion from the previous waypoint takes it. -/
noncomputable def startFrame (waypoint previous : Waypoint ℝ) : Pose ℝ :=
  if waypoint.sharesFrame previous then previous.solution.frame else waypoint.solution.frame

/-- In this frame the motion starts on the tool centre point of the previous waypoint. -/
def Joins (waypoint previous : Waypoint ℝ) (frame : Pose ℝ) : Prop :=
  (frame * waypoint.previousPlane previous).Same previous.worldPlane

theorem startFrame_mul_previousPlane (hstart : (waypoint.startFrame previous).Rigid) :
    waypoint.startFrame previous * waypoint.previousPlane previous = previous.worldPlane :=
  Pose.mul_inverse_mul hstart previous.solution.tcp

/-- A motion starts where the previous one ended exactly in its start frame. -/
theorem joins_iff {frame : Pose ℝ} (hframe : frame.Rigid)
    (hstart : (waypoint.startFrame previous).Rigid) (hplane : previous.worldPlane.Rigid) :
    waypoint.Joins previous frame ↔ frame.Same (waypoint.startFrame previous) := by
  have hprevious : (waypoint.previousPlane previous).Rigid := hstart.inverse.mul hplane
  rw [Joins, ← startFrame_mul_previousPlane hstart, Pose.same_mul_right_iff hframe hstart hprevious]

variable {m : Moment ℝ} (hm : m.IsStart) (armAxes : Nat)

include hm

theorem external_between_start
    (hlength : previous.solution.joints.length = waypoint.solution.joints.length) :
    (waypoint.between previous armAxes m).external = previous.solution.joints.drop armAxes :=
  hm.interpolateAll (by rw [List.length_drop, hlength, List.length_drop])

/-- Off a straight way the group is asked for its previous axis values. -/
theorem goal_between_start_joints (hjoint : waypoint.target.isLinear = false)
    (hlength : previous.solution.joints.length = waypoint.solution.joints.length) :
    (waypoint.between previous armAxes m).goal =
      .joints (previous.solution.joints.take armAxes) := by
  rw [goal_between_joint hjoint, hm.interpolateAll]
  rw [List.length_take, hlength, List.length_take]

/-- On a straight way the group is asked for the previous plane. -/
theorem goal_between_start_linear (hlinear : waypoint.target.isLinear = true)
    (hprevious : (waypoint.previousPlane previous).Rigid) :
    (waypoint.between previous armAxes m).goal =
      .cartesian (waypoint.previousPlane previous) none .linear := by
  obtain ⟨pose, forced, hgoal⟩ := Target.exists_goal_of_isLinear hlinear
  rw [goal_between_linear hgoal, hm.interpolatePose hprevious]

end Waypoint

/-! ### Solved steps -/

/-- The pose of the frame and what it is coupled to. -/
def Frame.placement {α : Type} (frame : Frame α) : Pose α × Option Nat × Option Nat :=
  (frame.pose, frame.coupledGroup, frame.coupledMechanism)

/-- What a target is solved with besides its goal and its external values. -/
def Target.fixture {α : Type} (target : Target α) : (Pose α × Option Nat × Option Nat) × Pose α :=
  (target.frame.placement, target.tool.tcp)

theorem Target.fixture_withConfiguration {α : Type} (target : Target α)
    (configuration : Option Configuration) :
    (target.withConfiguration configuration).fixture = target.fixture := by
  unfold withConfiguration
  split <;> rfl

/-- The solutions of the step are those of the cell for targets with the same frames and tools. -/
def Step.SolvedAs (cell : Cell ℝ) (step : Step ℝ) : Prop :=
  ∃ targets previous, targets.map Target.fixture = step.targets.map Target.fixture ∧
    cell.solve targets previous = .ok step.solutions

theorem Target.frame_of_fixture_eq {α : Type} {target other : Target α}
    (h : target.fixture = other.fixture) : target.frame.pose = other.frame.pose ∧
      target.frame.coupledGroup = other.frame.coupledGroup ∧
      target.frame.coupledMechanism = other.frame.coupledMechanism := by
  obtain ⟨hplacement, _⟩ := Prod.mk.inj h
  obtain ⟨hpose, hcoupling⟩ := Prod.mk.inj hplacement
  obtain ⟨hgroup, hmechanism⟩ := Prod.mk.inj hcoupling
  exact ⟨hpose, hgroup, hmechanism⟩

theorem Step.exists_fixture {step : Step ℝ} {targets : List (Target ℝ)}
    (h : targets.map Target.fixture = step.targets.map Target.fixture) {index : Nat}
    {waypoint : Waypoint ℝ} (hwaypoint : step.waypoints[index]? = some waypoint) :
    ∃ asked, targets[index]? = some asked ∧ asked.fixture = waypoint.target.fixture := by
  have hentry := congrArg (·[index]?) h
  simp only [Step.targets, List.getElem?_map, hwaypoint, Option.map_some] at hentry
  exact Option.map_eq_some_iff.mp hentry

namespace Step.SolvedAs

variable {cell : Cell ℝ} {step : Step ℝ} (h : step.SolvedAs cell) {index other : Nat}
  {waypoint : Waypoint ℝ} (hwaypoint : step.waypoints[index]? = some waypoint)

include h

theorem filled : step.Filled cell := by
  obtain ⟨targets, previous, _, hsolve⟩ := h
  exact filled_of_solve hsolve

theorem length_waypoints : step.waypoints.length = cell.groups.length := by
  obtain ⟨targets, previous, _, hsolve⟩ := h
  rw [← length_solutions, (Cell.length_of_solve hsolve).2]

theorem placeable : cell.Placeable step.targets := by
  obtain ⟨targets, previous, hfixtures, hsolve⟩ := h
  refine (Cell.placeable_of_solve hsolve).congr ?_
  -- What a frame is coupled to is a part of the fixture.
  have hcouplings := congrArg (List.map fun fixture ↦ fixture.1.2) hfixtures
  rw [List.map_map, List.map_map] at hcouplings
  exact hcouplings.symm

theorem rigid (hcell : cell.Rigid)
    (htargets : ∀ target ∈ step.targets, RigidAttributes target.tool target.frame) :
    ∀ solution ∈ step.solutions, solution.Rigid ∧ solution.frame.Rigid := by
  obtain ⟨targets, previous, hfixtures, hsolve⟩ := h
  refine hcell.of_solve_attributes (fun target htarget ↦ ?_) hsolve
  obtain ⟨given, hgiven, hsame⟩ := List.mem_map.mp (hfixtures ▸ List.mem_map_of_mem htarget)
  obtain ⟨hplacement, htool⟩ := Prod.mk.inj hsame
  have hrigid := htargets given hgiven
  exact ⟨(Prod.mk.inj hplacement).1 ▸ hrigid.frame, htool ▸ hrigid.tool⟩

include hwaypoint

theorem exists_solve : ∃ group asked coupled previous, cell.groups[index]? = some group ∧
    asked.fixture = waypoint.target.fixture ∧
    group.solve index asked coupled previous cell.base = waypoint.solution := by
  obtain ⟨targets, previous, hfixtures, hsolve⟩ := h
  obtain ⟨hcount, hframes⟩ := Cell.checked_of_solve hsolve
  obtain ⟨asked, hasked, hfixture⟩ := Step.exists_fixture hfixtures hwaypoint
  obtain ⟨group, given, coupled, hgroup, hgiven, hsolved, _⟩ :=
    Cell.exists_solve_of_getElem? hcount hframes hsolve (Step.getElem?_solutions hwaypoint)
  obtain rfl := Option.some.inj (hasked.symm.trans hgiven)
  exact ⟨group, asked, coupled, _, hgroup, hfixture, hsolved⟩

theorem frame_of_uncoupled (hfree : waypoint.target.frame.coupledGroup = none) :
    waypoint.solution.frame = waypoint.target.frame.pose := by
  obtain ⟨targets, previous, hfixtures, hsolve⟩ := h
  obtain ⟨asked, hasked, hfixture⟩ := Step.exists_fixture hfixtures hwaypoint
  obtain ⟨hpose, hgroup, _⟩ := Target.frame_of_fixture_eq hfixture
  rw [← hpose]
  exact Cell.frame_of_uncoupled hsolve hasked (Step.getElem?_solutions hwaypoint)
    (hgroup.trans hfree)

/-- Where the axis values of the step move the mechanism to, there the frame stands. -/
theorem frame_of_mechanism (hcomplete : cell.Complete) (hfaults : step.faults = []) {place : Nat}
    (hcoupled : waypoint.target.frame.coupledGroup = some other)
    (hplace : waypoint.target.frame.coupledMechanism = some place) :
    ∃ carrier carrying moved, cell.groups[other]? = some carrier ∧
      step.waypoints[other]? = some carrying ∧
      (Group.solveMechanisms cell.base carrier.externals
        (carrying.solution.joints.drop carrier.arm.axisCount))[place]? = some moved ∧
      waypoint.solution.frame = moved.tcp * waypoint.target.frame.pose := by
  have hlength := h.length_waypoints
  obtain ⟨targets, previous, hfixtures, hsolve⟩ := h
  obtain ⟨hcount, hframes⟩ := Cell.checked_of_solve hsolve
  obtain ⟨asked, hasked, hfixture⟩ := Step.exists_fixture hfixtures hwaypoint
  obtain ⟨hpose, hgroup, hmechanism⟩ := Target.frame_of_fixture_eq hfixture
  obtain ⟨carrier, given, moved, hcarrier, hgiven, hmoved, hframe⟩ :=
    Cell.frame_of_mechanism hcomplete hsolve hasked (Step.getElem?_solutions hwaypoint)
      (hgroup.trans hcoupled) (hmechanism.trans hplace)
  obtain ⟨hlt, _⟩ := List.getElem?_eq_some_iff.mp hcarrier
  have hcarrying := List.getElem?_eq_getElem (hlength ▸ hlt : other < step.waypoints.length)
  refine ⟨carrier, _, moved, hcarrier, hcarrying, ?_, hpose ▸ hframe⟩
  obtain ⟨_, held, coupled, hsame, hheld, hsolved, _⟩ :=
    Cell.exists_solve_of_getElem? hcount hframes hsolve (Step.getElem?_solutions hcarrying)
  obtain rfl := Option.some.inj (hcarrier.symm.trans hsame)
  obtain rfl := Option.some.inj (hgiven.symm.trans hheld)
  have hclean := Step.faults_of_mem_solutions hfaults
    (List.mem_of_getElem? (Step.getElem?_solutions hcarrying))
  rw [← hsolved] at hclean ⊢
  rw [Group.faults_solve] at hclean
  rwa [Group.drop_joints_solve,
    Group.solveMechanisms_joints (List.append_eq_nil_iff.mp hclean).2]

theorem frame_of_tool (hcoupled : waypoint.target.frame.coupledGroup = some other)
    (hnone : waypoint.target.frame.coupledMechanism = none) :
    ∃ carrying, step.waypoints[other]? = some carrying ∧
      waypoint.solution.frame = carrying.worldPlane * waypoint.target.frame.pose := by
  obtain ⟨targets, previous, hfixtures, hsolve⟩ := h
  obtain ⟨asked, hasked, hfixture⟩ := Step.exists_fixture hfixtures hwaypoint
  obtain ⟨hpose, hgroup, hmechanism⟩ := Target.frame_of_fixture_eq hfixture
  obtain ⟨solution, hsolution, hframe⟩ := Cell.frame_of_tool hsolve hasked
    (Step.getElem?_solutions hwaypoint) (hgroup.trans hcoupled) (hmechanism.trans hnone)
  rw [Step.solutions, List.getElem?_map, Option.map_eq_some_iff] at hsolution
  obtain ⟨carrying, hcarrying, rfl⟩ := hsolution
  exact ⟨carrying, hcarrying, hpose ▸ hframe⟩

end Step.SolvedAs

/-! ### The start of a motion -/

theorem Waypoint.frame_between (waypoint previous : Waypoint ℝ) (armAxes : Nat) (m : Moment ℝ) :
    (waypoint.between previous armAxes m).frame = waypoint.target.frame := by
  obtain ⟨goal, external, hbetween⟩ := Step.exists_between_eq waypoint previous armAxes m
  rw [hbetween]

theorem Waypoint.tool_between (waypoint previous : Waypoint ℝ) (armAxes : Nat) (m : Moment ℝ) :
    (waypoint.between previous armAxes m).tool = waypoint.target.tool := by
  obtain ⟨goal, external, hbetween⟩ := Step.exists_between_eq waypoint previous armAxes m
  rw [hbetween]

/-- The cell is solved to `solutions` at the start of the motion from the step `before` to the step
`kept`. -/
structure Departs (cell : Cell ℝ) (before kept : Step ℝ) (m : Moment ℝ)
    (previous : Option (List (List ℝ))) (solutions : List (Solution ℝ)) : Prop where
  rigid : cell.Rigid
  complete : cell.Complete
  moment : m.IsStart
  begun : before.SolvedAs cell
  ended : kept.SolvedAs cell
  rigid_begun : ∀ target ∈ before.targets, RigidAttributes target.tool target.frame
  rigid_ended : ∀ target ∈ kept.targets, RigidAttributes target.tool target.frame
  faultless : before.faults = []
  /-- One instance is one frame. -/
  shared : ∀ {index : Nat} {waypoint earlier : Waypoint ℝ},
    kept.waypoints[index]? = some waypoint → before.waypoints[index]? = some earlier →
    waypoint.sharesFrame earlier = true →
      waypoint.target.frame.placement = earlier.target.frame.placement
  solve : cell.solve (kept.between before cell m) previous = .ok solutions

namespace Departs

variable {cell : Cell ℝ} {before kept : Step ℝ} {m : Moment ℝ}
  {previous : Option (List (List ℝ))} {solutions : List (Solution ℝ)}
  (h : Departs cell before kept m previous solutions) {index other : Nat}
  {waypoint earlier : Waypoint ℝ} {solution : Solution ℝ}
  (hwaypoint : kept.waypoints[index]? = some waypoint)
  (hearlier : before.waypoints[index]? = some earlier)
  (hsolution : solutions[index]? = some solution)

include h

theorem rigid_solutions : ∀ solution ∈ solutions, solution.Rigid ∧ solution.frame.Rigid := by
  refine h.rigid.of_solve_attributes (fun target htarget ↦ ?_) h.solve
  obtain ⟨index, hindex⟩ := List.mem_iff_getElem?.mp htarget
  obtain ⟨waypoint, earlier, hwaypoint, _, rfl⟩ := Step.exists_between_of_getElem? hindex
  rw [Waypoint.frame_between, Waypoint.tool_between]
  exact h.rigid_ended _ (List.mem_map_of_mem (List.mem_of_getElem? hwaypoint))

include hearlier in
theorem rigid_earlier : earlier.solution.Rigid ∧ earlier.solution.frame.Rigid :=
  h.begun.rigid h.rigid h.rigid_begun _ (List.mem_of_getElem? (Step.getElem?_solutions hearlier))

include hwaypoint in
theorem rigid_attributes : RigidAttributes waypoint.target.tool waypoint.target.frame :=
  h.rigid_ended _ (List.mem_map_of_mem (List.mem_of_getElem? hwaypoint))

include hwaypoint in
theorem rigid_frame : waypoint.solution.frame.Rigid :=
  (h.ended.rigid h.rigid h.rigid_ended _
    (List.mem_of_getElem? (Step.getElem?_solutions hwaypoint))).2

include hwaypoint hearlier

theorem rigid_previousPlane : (waypoint.previousPlane earlier).Rigid :=
  Waypoint.rigid_previousPlane (h.rigid_frame hwaypoint) (h.rigid_earlier hearlier)

theorem rigid_startFrame : (waypoint.startFrame earlier).Rigid := by
  unfold Waypoint.startFrame
  split_ifs
  · exact (h.rigid_earlier hearlier).2
  · exact h.rigid_frame hwaypoint

theorem length_joints {group : Group ℝ} (hgroup : cell.groups[index]? = some group) :
    earlier.solution.joints.length = waypoint.solution.joints.length := by
  obtain ⟨_, hstart, hbegun⟩ := h.begun.filled index group hgroup
  obtain ⟨_, hstop, hended⟩ := h.ended.filled index group hgroup
  obtain rfl := Option.some.inj ((Step.getElem?_solutions hearlier).symm.trans hstart)
  obtain rfl := Option.some.inj ((Step.getElem?_solutions hwaypoint).symm.trans hstop)
  rw [hbegun, hended]

include hsolution

/-- An uncoupled frame is its own start frame. -/
theorem frame_of_uncoupled (hfree : waypoint.target.frame.coupledGroup = none) :
    solution.frame = waypoint.startFrame earlier := by
  have hasked := Step.getElem?_between hwaypoint hearlier cell m
  have hframe := waypoint.frame_between earlier (cell.armAxisCount index) m
  have hstands := Cell.frame_of_uncoupled h.solve hasked hsolution
    ((congrArg Frame.coupledGroup hframe).trans hfree)
  rw [hstands, hframe, Waypoint.startFrame]
  split_ifs with hshares
  · obtain ⟨hpose, hcoupling⟩ := Prod.mk.inj (h.shared hwaypoint hearlier hshares)
    rw [h.begun.frame_of_uncoupled hearlier ((Prod.mk.inj hcoupling).1.symm.trans hfree), hpose]
  · rw [h.ended.frame_of_uncoupled hwaypoint hfree]

/-- A shared frame on a mechanism starts where the mechanism stood. -/
theorem frame_of_mechanism (hshares : waypoint.sharesFrame earlier = true) {place : Nat}
    (hcoupled : waypoint.target.frame.coupledGroup = some other)
    (hplace : waypoint.target.frame.coupledMechanism = some place) :
    solution.frame = waypoint.startFrame earlier := by
  have hasked := Step.getElem?_between hwaypoint hearlier cell m
  have hframe := waypoint.frame_between earlier (cell.armAxisCount index) m
  obtain ⟨carrier, asked, moved, hcarrier, hgiven, hmoved, hstands⟩ :=
    Cell.frame_of_mechanism h.complete h.solve hasked hsolution
      ((congrArg Frame.coupledGroup hframe).trans hcoupled)
      ((congrArg Frame.coupledMechanism hframe).trans hplace)
  obtain ⟨hpose, hcoupling⟩ := Prod.mk.inj (h.shared hwaypoint hearlier hshares)
  obtain ⟨hgroup, hmechanism⟩ := Prod.mk.inj hcoupling
  obtain ⟨_, carrying, stood, hsame, hcarrying, hstood, hbegun⟩ :=
    h.begun.frame_of_mechanism hearlier h.complete h.faultless (hgroup.symm.trans hcoupled)
      (hmechanism.symm.trans hplace)
  obtain rfl := Option.some.inj (hcarrier.symm.trans hsame)
  -- The mechanism is asked for the axis values that it had.
  obtain ⟨next, held, hnext, hheld, rfl⟩ := Step.exists_between_of_getElem? hgiven
  obtain rfl := Option.some.inj (hcarrying.symm.trans hheld)
  rw [Waypoint.external_between_start h.moment _ (h.length_joints hnext hheld hcarrier),
    Cell.armAxisCount_of_getElem? hcarrier] at hmoved
  obtain rfl := Option.some.inj (hmoved.symm.trans hstood)
  rw [hstands, hframe, hpose, Waypoint.startFrame, if_pos hshares, hbegun]

/-- A shared frame on a tool starts where the tool is solved to be. -/
theorem frame_of_tool (hshares : waypoint.sharesFrame earlier = true)
    (hcoupled : waypoint.target.frame.coupledGroup = some other)
    (hnone : waypoint.target.frame.coupledMechanism = none) :
    ∃ carrying held, solutions[other]? = some carrying ∧ before.waypoints[other]? = some held ∧
      solution.frame = carrying.tcp * waypoint.target.frame.pose ∧
      waypoint.startFrame earlier = held.worldPlane * waypoint.target.frame.pose := by
  have hasked := Step.getElem?_between hwaypoint hearlier cell m
  have hframe := waypoint.frame_between earlier (cell.armAxisCount index) m
  obtain ⟨carrying, hcarrying, hstands⟩ := Cell.frame_of_tool h.solve hasked hsolution
    ((congrArg Frame.coupledGroup hframe).trans hcoupled)
    ((congrArg Frame.coupledMechanism hframe).trans hnone)
  obtain ⟨hpose, hcoupling⟩ := Prod.mk.inj (h.shared hwaypoint hearlier hshares)
  obtain ⟨hgroup, hmechanism⟩ := Prod.mk.inj hcoupling
  obtain ⟨held, hheld, hbegun⟩ := h.begun.frame_of_tool hearlier (hgroup.symm.trans hcoupled)
    (hmechanism.symm.trans hnone)
  refine ⟨carrying, held, hcarrying, hheld, ?_, ?_⟩
  · rw [hstands, hframe]
  · rw [Waypoint.startFrame, if_pos hshares, hbegun, hpose]

/-- In its start frame a motion starts on the previous tool centre point, and in no other one. -/
theorem joins_iff :
    waypoint.Joins earlier solution.frame ↔ solution.frame.Same (waypoint.startFrame earlier) :=
  Waypoint.joins_iff (h.rigid_solutions _ (List.mem_of_getElem? hsolution)).2
    (h.rigid_startFrame hwaypoint hearlier) (h.rigid_earlier hearlier).1.tcp

/-- On a tool the motion starts on the previous tool centre point exactly if the tool does. -/
theorem joins_iff_of_tool (hshares : waypoint.sharesFrame earlier = true)
    (hcoupled : waypoint.target.frame.coupledGroup = some other)
    (hnone : waypoint.target.frame.coupledMechanism = none) {carrying : Solution ℝ}
    {held : Waypoint ℝ} (hcarrying : solutions[other]? = some carrying)
    (hheld : before.waypoints[other]? = some held) :
    waypoint.Joins earlier solution.frame ↔ carrying.tcp.Same held.worldPlane := by
  obtain ⟨_, _, hsame, hsame', hframe, hstart⟩ :=
    h.frame_of_tool hwaypoint hearlier hsolution hshares hcoupled hnone
  obtain rfl := Option.some.inj (hcarrying.symm.trans hsame)
  obtain rfl := Option.some.inj (hheld.symm.trans hsame')
  rw [h.joins_iff hwaypoint hearlier hsolution, hframe, hstart]
  exact Pose.same_mul_right_iff (h.rigid_solutions _ (List.mem_of_getElem? hcarrying)).1.tcp
    (h.rigid_earlier hheld).1.tcp (h.rigid_attributes hwaypoint).frame

/-- A group that is asked for its previous axis values is on its previous planes, and with the same
tool on its previous tool centre point. -/
theorem tcp_of_joint (hjoint : waypoint.target.isLinear = false)
    (htool : waypoint.target.tool.tcp = earlier.target.tool.tcp) :
    solution.tcp = earlier.worldPlane := by
  obtain ⟨hcount, hframes⟩ := Cell.checked_of_solve h.solve
  have hbetween := Step.getElem?_between hwaypoint hearlier cell m
  obtain ⟨group, _, _, hgroup, hasked, rfl, _⟩ :=
    Cell.exists_solve_of_getElem? hcount hframes h.solve hsolution
  obtain rfl := Option.some.inj (hbetween.symm.trans hasked)
  obtain ⟨_, given, coupled, start, hsame, hfixture, hsolved⟩ := h.begun.exists_solve hearlier
  obtain rfl := Option.some.inj (hgroup.symm.trans hsame)
  have hlength := h.length_joints hwaypoint hearlier hgroup
  have hclean := Step.faults_of_mem_solutions h.faultless
    (List.mem_of_getElem? (Step.getElem?_solutions hearlier))
  have hgoal := Waypoint.goal_between_start_joints h.moment group.arm.axisCount hjoint hlength
  have hexternal := Waypoint.external_between_start h.moment group.arm.axisCount hlength
  rw [← hsolved] at hclean hgoal hexternal
  rw [Cell.armAxisCount_of_getElem? hgroup, Waypoint.worldPlane, Solution.tcp, Solution.tcp,
    ← hsolved, Group.planes_solve_of_joints (Group.solveMechanisms_external hclean hexternal) ?_
      (Group.joints_solve_of_joints hclean hgoal hexternal)]
  rw [Waypoint.tool_between, htool]
  exact (Prod.mk.inj hfixture).2.symm

/-- A group on a straight motion that starts where the previous one ended is there itself, unless
the arm cannot be. -/
theorem same_tcp_of_linear (hlinear : waypoint.target.isLinear = true) {group : Group ℝ}
    (hgroup : cell.groups[index]? = some group)
    (hreproduces : group.arm.solver.Reproduces (Arm.flangeFor
      (group.mount (waypoint.between earlier group.arm.axisCount m) cell.base) solution.frame
      (waypoint.previousPlane earlier) waypoint.target.tool.tcp))
    (hfaults : solution.faults = []) (hjoins : waypoint.Joins earlier solution.frame) :
    solution.tcp.Same earlier.worldPlane := by
  obtain ⟨hcount, hframes⟩ := Cell.checked_of_solve h.solve
  have hbetween := Step.getElem?_between hwaypoint hearlier cell m
  rw [Cell.armAxisCount_of_getElem? hgroup] at hbetween
  have hattributes := h.rigid_attributes hwaypoint
  have hprevious := h.rigid_previousPlane hwaypoint hearlier
  have hgoal :=
    Waypoint.goal_between_start_linear h.moment group.arm.axisCount hlinear hprevious
  have hframe := (h.rigid_solutions _ (List.mem_of_getElem? hsolution)).2
  obtain ⟨_, _, coupled, hsame, hasked, rfl, _⟩ :=
    Cell.exists_solve_of_getElem? hcount hframes h.solve hsolution
  obtain rfl := Option.some.inj (hgroup.symm.trans hsame)
  obtain rfl := Option.some.inj (hbetween.symm.trans hasked)
  have hrigid : (waypoint.between earlier group.arm.axisCount m).Rigid := by
    refine ⟨fun hother ↦ ?_, ?_, ?_⟩
    · obtain rfl := (Goal.cartesian.inj (hgoal.symm.trans hother)).1
      exact hprevious
    · rw [Waypoint.frame_between]
      exact hattributes.frame
    · rw [Waypoint.tool_between]
      exact hattributes.tool
  rw [← waypoint.tool_between earlier group.arm.axisCount m] at hreproduces
  exact (Group.same_tcp_solve (h.rigid.groups group (List.mem_of_getElem? hgroup)) h.rigid.base
    hrigid hframe hgoal hreproduces hfaults).trans hjoins

theorem joins_of_uncoupled (hfree : waypoint.target.frame.coupledGroup = none) :
    waypoint.Joins earlier solution.frame := by
  rw [h.joins_iff hwaypoint hearlier hsolution,
    h.frame_of_uncoupled hwaypoint hearlier hsolution hfree]
  exact .refl _

/-- In a shared frame the motion starts where the previous one ended if the tool does that carries
the frame, where a tool carries it. -/
theorem joins_of_shared (hshares : waypoint.sharesFrame earlier = true)
    (hcarrier : ∀ {other : Nat} {carrying : Solution ℝ} {held : Waypoint ℝ},
      waypoint.target.frame.coupledGroup = some other →
      waypoint.target.frame.coupledMechanism = none → solutions[other]? = some carrying →
      before.waypoints[other]? = some held → carrying.tcp.Same held.worldPlane) :
    waypoint.Joins earlier solution.frame := by
  cases hcoupled : waypoint.target.frame.coupledGroup with
  | none => exact h.joins_of_uncoupled hwaypoint hearlier hsolution hcoupled
  | some other =>
    cases hplace : waypoint.target.frame.coupledMechanism with
    | none =>
      obtain ⟨carrying, held, hcarrying, hheld, _, _⟩ :=
        h.frame_of_tool hwaypoint hearlier hsolution hshares hcoupled hplace
      exact (h.joins_iff_of_tool hwaypoint hearlier hsolution hshares hcoupled hplace hcarrying
        hheld).mpr (hcarrier hcoupled hplace hcarrying hheld)
    | some place =>
      rw [h.joins_iff hwaypoint hearlier hsolution,
        h.frame_of_mechanism hwaypoint hearlier hsolution hshares hcoupled hplace]
      exact .refl _

end Departs

/-! ### Motions that continue -/

namespace Step

variable (cell : Cell ℝ) (before kept : Step ℝ) (m : Moment ℝ) (solutions : List (Solution ℝ))

/-- Both targets of the group have the frame. -/
def SharesFrame (index : Nat) (frame : Frame ℝ) : Prop :=
  ∃ waypoint earlier, kept.waypoints[index]? = some waypoint ∧
    before.waypoints[index]? = some earlier ∧ waypoint.target.frame = frame ∧
    waypoint.sharesFrame earlier = true

/-- The group does not move on a straight way, and it keeps its tool. -/
def KeepsTool (index : Nat) : Prop :=
  ∃ waypoint earlier, kept.waypoints[index]? = some waypoint ∧
    before.waypoints[index]? = some earlier ∧ waypoint.target.isLinear = false ∧
    waypoint.target.tool.tcp = earlier.target.tool.tcp

/-- The group moves on a straight way, and its arm can be where it starts. -/
def StartsOnTarget (index : Nat) : Prop :=
  ∃ group waypoint earlier solution, cell.groups[index]? = some group ∧
    kept.waypoints[index]? = some waypoint ∧ before.waypoints[index]? = some earlier ∧
    solutions[index]? = some solution ∧ waypoint.target.isLinear = true ∧ solution.faults = [] ∧
    group.arm.solver.Reproduces (Arm.flangeFor
      (group.mount (waypoint.between earlier group.arm.axisCount m) cell.base) solution.frame
      (waypoint.previousPlane earlier) waypoint.target.tool.tcp)

/-- The frame of the group is at the start of the motion where the previous motion has left it. -/
inductive Continues : Nat → Prop where
  | uncoupled {index : Nat} {waypoint : Waypoint ℝ}
    (hwaypoint : kept.waypoints[index]? = some waypoint)
    (hfree : waypoint.target.frame.coupledGroup = none) : Continues index
  | onMechanism {index place : Nat} {frame : Frame ℝ} (hshares : SharesFrame before kept index frame)
    (hplace : frame.coupledMechanism = some place) : Continues index
  | onKeptTool {index other : Nat} {frame : Frame ℝ}
    (hshares : SharesFrame before kept index frame) (hcoupled : frame.coupledGroup = some other)
    (hkeeps : KeepsTool before kept other) : Continues index
  | onStraightTool {index other : Nat} {frame : Frame ℝ}
    (hshares : SharesFrame before kept index frame) (hcoupled : frame.coupledGroup = some other)
    (hstarts : StartsOnTarget cell before kept m solutions other) (hcarrier : Continues other) :
    Continues index

end Step

/-- A motion whose frame is where the previous motion has left it starts where that one ended. -/
theorem Departs.joins_of_continues {cell : Cell ℝ} {before kept : Step ℝ} {m : Moment ℝ}
    {previous : Option (List (List ℝ))} {solutions : List (Solution ℝ)}
    (h : Departs cell before kept m previous solutions) {index : Nat}
    (hcontinues : Step.Continues cell before kept m solutions index) :
    ∀ {waypoint earlier : Waypoint ℝ} {solution : Solution ℝ},
      kept.waypoints[index]? = some waypoint → before.waypoints[index]? = some earlier →
      solutions[index]? = some solution → waypoint.Joins earlier solution.frame := by
  -- The induction is on the couplings: a tool on a straight way depends on its own frame.
  induction hcontinues with
  | uncoupled hgiven hfree =>
    intro waypoint earlier solution hwaypoint hearlier hsolution
    obtain rfl := Option.some.inj (hwaypoint.symm.trans hgiven)
    exact h.joins_of_uncoupled hwaypoint hearlier hsolution hfree
  | onMechanism hshares hplace =>
    intro waypoint earlier solution hwaypoint hearlier hsolution
    obtain ⟨_, _, hgiven, hstart, rfl, hsame⟩ := hshares
    obtain rfl := Option.some.inj (hwaypoint.symm.trans hgiven)
    obtain rfl := Option.some.inj (hearlier.symm.trans hstart)
    refine h.joins_of_shared hwaypoint hearlier hsolution hsame fun _ hnone _ _ ↦ ?_
    rw [hplace] at hnone
    cases hnone
  | onKeptTool hshares hcoupled hkeeps =>
    intro waypoint earlier solution hwaypoint hearlier hsolution
    obtain ⟨_, _, hgiven, hstart, rfl, hsame⟩ := hshares
    obtain rfl := Option.some.inj (hwaypoint.symm.trans hgiven)
    obtain rfl := Option.some.inj (hearlier.symm.trans hstart)
    refine h.joins_of_shared hwaypoint hearlier hsolution hsame fun hother _ hcarrying hheld ↦ ?_
    obtain rfl := Option.some.inj (hcoupled.symm.trans hother)
    obtain ⟨next, _, hnext, hlast, hjoint, htool⟩ := hkeeps
    obtain rfl := Option.some.inj (hheld.symm.trans hlast)
    rw [h.tcp_of_joint hnext hheld hcarrying hjoint htool]
    exact .refl _
  | onStraightTool hshares hcoupled hstarts _ ih =>
    intro waypoint earlier solution hwaypoint hearlier hsolution
    obtain ⟨_, _, hgiven, hstart, rfl, hsame⟩ := hshares
    obtain rfl := Option.some.inj (hwaypoint.symm.trans hgiven)
    obtain rfl := Option.some.inj (hearlier.symm.trans hstart)
    refine h.joins_of_shared hwaypoint hearlier hsolution hsame fun hother _ hcarrying hheld ↦ ?_
    obtain rfl := Option.some.inj (hcoupled.symm.trans hother)
    obtain ⟨group, next, _, _, hgroup, hnext, hlast, hsolved, hlinear, hclean, hreproduces⟩ :=
      hstarts
    obtain rfl := Option.some.inj (hheld.symm.trans hlast)
    obtain rfl := Option.some.inj (hcarrying.symm.trans hsolved)
    exact h.same_tcp_of_linear hnext hheld hcarrying hlinear hgroup hreproduces hclean
      (ih hnext hheld hcarrying)

/-! ### A frame on a slide -/

theorem complete_slideCell (length : ℝ) : (slideCell length).Complete :=
  List.forall_mem_singleton.mpr (List.forall_mem_singleton.mpr (by decide : (1 : Nat) ≤ 3))

theorem coherent_passage (length : ℝ) : Coherent (authoredUses (passage length)) := by
  have hdistinct : ((gone 0).attributes.map Attribute.id).Nodup := by decide
  have honce : Coherent (gone length).attributes := coherent_of_nodup hdistinct
  -- Both targets use the same attributes.
  have htwice : authoredUses (passage length) =
      (gone length).attributes ++ (gone length).attributes := rfl
  intro first hfirst second hsecond
  rw [htwice, List.mem_append, or_self] at hfirst hsecond
  exact honce first hfirst second hsecond

/-- At the start of the motion the slide stands where the first target has it. -/
theorem Program.Passage.exists_over_of_solve_start {program : Program ℝ} {length : ℝ}
    {before kept : Step ℝ} (h : program.Passage length before kept) (hlength : 0 ≤ length)
    {whole : Nat} {solutions : List (Solution ℝ)}
    (hsolve : (slideCell length).solve (kept.between before (slideCell length) (.ofParts 0 whole))
      (some before.joints) = .ok solutions) :
    ∃ solution, solutions = [solution] ∧ solution.Over 0 := by
  rw [h.begins.joints_eq] at hsolve
  have hmoment : (Moment.ofParts 0 whole).interpolate 0 length = 0 := by
    rw [Moment.interpolate_ofParts, Nat.cast_zero, zero_div, mul_zero, add_zero]
  have hover := exists_over_of_solve_between h.begins h.passes ⟨le_rfl, hlength⟩ ⟨hlength, le_rfl⟩
    (Nat.zero_le whole) hsolve
  rwa [hmoment] at hover

/-! ### Programs -/

/-- The frame is one of the author, perhaps under another name. -/
def Frame.AuthoredIn {α : Type} (uses : List (Attribute α)) (frame : Frame α) : Prop :=
  ∃ given, .frame given ∈ uses ∧ frame.label.key = given.label.key ∧
    frame.placement = given.placement

theorem Frame.AuthoredIn.placement_eq {α : Type} {uses : List (Attribute α)}
    (hcoherent : Coherent uses) {frame other : Frame α} (hframe : frame.AuthoredIn uses)
    (hother : other.AuthoredIn uses) (hkey : frame.label.key = other.label.key) :
    frame.placement = other.placement := by
  obtain ⟨given, hgiven, hsame, hplacement⟩ := hframe
  obtain ⟨found, hfound, hsame', hplacement'⟩ := hother
  have hid : (Attribute.frame given).id = (Attribute.frame found).id :=
    Prod.ext rfl (hsame.symm.trans (hkey.trans hsame'))
  obtain rfl := Attribute.frame.inj (hcoherent _ hgiven _ hfound hid)
  exact hplacement.trans hplacement'.symm

theorem Cell.survivesPreparation_authoredIn (cell : Cell ℝ) (uses : List (Attribute ℝ)) :
    SurvivesPreparation cell fun _ target ↦ target.frame.AuthoredIn uses where
  external := fun _ _ h ↦ h
  configuration := by
    intro _ target h
    rwa [target.frame_withConfiguration]
  relabel := by
    rintro naming _ target ⟨given, hgiven, hkey, hplacement⟩
    exact ⟨given, hgiven, (naming.key_relabelling .frame target.frame.label).trans hkey, hplacement⟩
  anchor := by
    intro index target solution h
    unfold anchorTarget
    dsimp only
    split_ifs
    · exact h
    · exact h

section Program

variable {cell : Cell ℝ} {toolpaths : List (List (Target ℝ))} {stepSize : ℝ} {count : Nat}
  {first : Step ℝ} {rest : List (Step ℝ)} {solutions : List (Solution ℝ)}
  {prepared : PreparedProgram ℝ} {journey : Journey ℝ}

theorem Stages.authoredIn_targets
    (h : Stages cell toolpaths stepSize count first rest solutions prepared journey) :
    ∀ step ∈ journey.targets, ∀ target ∈ step.targets,
      target.frame.AuthoredIn (authoredUses toolpaths) := by
  intro step hstep target htarget
  obtain ⟨index, hindex⟩ := List.mem_iff_getElem?.mp htarget
  refine h.eachTarget_targets (cell.survivesPreparation_authoredIn _) ?_ step hstep index target
    hindex
  intro group toolpath htoolpath given hgiven
  refine ⟨given.frame, (mem_authoredUses h.length).mpr ?_, rfl, rfl⟩
  exact ⟨toolpath, List.mem_of_getElem? htoolpath, given, hgiven, .frame⟩

theorem Stages.rigid_targets
    (h : Stages cell toolpaths stepSize count first rest solutions prepared journey)
    (htargets : ∀ toolpath ∈ toolpaths, ∀ target ∈ toolpath, target.Rigid) :
    ∀ step ∈ journey.targets, ∀ target ∈ step.targets,
      RigidAttributes target.tool target.frame := by
  intro step hstep target htarget
  obtain ⟨index, hindex⟩ := List.mem_iff_getElem?.mp htarget
  have hrigid := h.eachTarget_targets cell.survivesPreparation_rigid
    (fun _ toolpath htoolpath ↦ htargets toolpath (List.mem_of_getElem? htoolpath)) step hstep index
    target hindex
  exact ⟨hrigid.frame, hrigid.tool⟩

/-- Whatever a motion starts from is solved for its own frames and tools. -/
theorem Stages.solvedAs_start
    (h : Stages cell toolpaths stepSize count first rest solutions prepared journey)
    {place : Nat} {before next : Step ℝ} {motion : Travel ℝ}
    (hleg : Leg cell stepSize prepared journey place before next motion) :
    before.SolvedAs cell := by
  rcases hleg.solved with ⟨hfirst, htargets⟩ | ⟨earlier, other, hother, htargets, hsolve⟩
  · have hcount := h.length_waypoints first List.mem_cons_self
    have hlength : solutions.length = first.waypoints.length :=
      (Cell.length_of_solve h.prepares.solve).2.trans hcount.symm
    refine ⟨_, none, ?_, (hfirst.trans (h.prepares.solutions_first hcount)) ▸ h.prepares.solve⟩
    rw [htargets, h.prepares.map_targets_first (fun _ _ ↦ rfl) Target.fixture_withConfiguration
      (fun _ _ ↦ rfl) (fun _ _ ↦ rfl) hlength]
    exact map_targets_fitted cell (fun _ _ ↦ rfl) first
  · refine ⟨_, _, ?_, hsolve⟩
    have hlengths := (Cell.length_of_solve hsolve).1
    rw [Step.endTargets, List.length_zipWith,
      h.length_waypoints_prepared other (List.mem_cons_of_mem _ hother)] at hlengths
    rw [htargets]
    refine Step.map_targets_endTargets Target.fixture_withConfiguration ?_
    rw [h.length_waypoints_prepared other (List.mem_cons_of_mem _ hother), ← hlengths]
    exact Nat.min_le_right _ _

/-- A target without faults is solved for its own frames and tools. -/
theorem Stages.solvedAs_target
    (h : Stages cell toolpaths stepSize count first rest solutions prepared journey)
    {place : Nat} {before next : Step ℝ} {motion : Travel ℝ}
    (hleg : Leg cell stepSize prepared journey place before next motion)
    (hfaults : motion.faults = []) : motion.target.SolvedAs cell := by
  refine ⟨_, _, ?_, hleg.travelled.solve_target hfaults hleg.count⟩
  rw [(Prod.mk.inj (hleg.travelled.task hleg.count)).2]
  exact Step.map_targets_endTargets Target.fixture_withConfiguration
    (hleg.count.trans (h.length_waypoints_leg hleg).symm).le

end Program

/-- How a group of the cell departs from the step `before` to the target `kept`, the cell being
solved to `solutions` at the moment `m`. -/
structure Step.Departure (cell : Cell ℝ) (before kept : Step ℝ) (m : Moment ℝ)
    (solutions : List (Solution ℝ)) (index : Nat) (waypoint earlier : Waypoint ℝ)
    (solution : Solution ℝ) : Prop where
  asks : kept.waypoints[index]? = some waypoint
  starts : before.waypoints[index]? = some earlier
  solves : solutions[index]? = some solution
  /-- On a straight way the group is asked for the plane that the motion starts from. -/
  linear : waypoint.target.isLinear = true → ∃ target,
    (kept.between before cell m)[index]? = some target ∧
    target.goal = .cartesian (waypoint.previousPlane earlier) none .linear
  /-- This plane is the previous tool centre point in one place of the frame only. -/
  joins_iff : waypoint.Joins earlier solution.frame ↔
    solution.frame.Same (waypoint.startFrame earlier)
  /-- A tool that carries a shared frame has to start where it was. -/
  joins_iff_tool : ∀ {other : Nat} {carrying : Solution ℝ} {held : Waypoint ℝ},
    waypoint.sharesFrame earlier = true → waypoint.target.frame.coupledGroup = some other →
    waypoint.target.frame.coupledMechanism = none → solutions[other]? = some carrying →
    before.waypoints[other]? = some held →
      (waypoint.Joins earlier solution.frame ↔ carrying.tcp.Same held.worldPlane)
  joins : Step.Continues cell before kept m solutions index → waypoint.Joins earlier solution.frame

theorem Departs.exists_departure {cell : Cell ℝ} {before kept : Step ℝ} {m : Moment ℝ}
    {previous : Option (List (List ℝ))} {solutions : List (Solution ℝ)}
    (h : Departs cell before kept m previous solutions) {index : Nat}
    (hindex : index < cell.groups.length) :
    ∃ waypoint earlier solution,
      Step.Departure cell before kept m solutions index waypoint earlier solution := by
  have hwaypoint := List.getElem?_eq_getElem
    (h.ended.length_waypoints ▸ hindex : index < kept.waypoints.length)
  have hearlier := List.getElem?_eq_getElem
    (h.begun.length_waypoints ▸ hindex : index < before.waypoints.length)
  have hsolution := List.getElem?_eq_getElem
    ((Cell.length_of_solve h.solve).2 ▸ hindex : index < solutions.length)
  refine ⟨_, _, _, hwaypoint, hearlier, hsolution, fun hlinear ↦ ?_,
    h.joins_iff hwaypoint hearlier hsolution,
    fun hshares hcoupled hplace hcarrying hheld ↦ h.joins_iff_of_tool hwaypoint hearlier hsolution
      hshares hcoupled hplace hcarrying hheld,
    fun hcontinues ↦ h.joins_of_continues hcontinues hwaypoint hearlier hsolution⟩
  refine ⟨_, Step.getElem?_between hwaypoint hearlier cell m, ?_⟩
  exact Waypoint.goal_between_start_linear h.moment _ hlinear
    (h.rigid_previousPlane hwaypoint hearlier)

/-- In a cell of rigid poses, let the cell be solved for the targets between two targets of a
program at the start of the motion. A group on a straight way is then asked for the tool centre
point that it has at the first target, in the coordinates of the start frame, and it is there
exactly if its frame stands on the start frame. This is so where the frame is uncoupled, and where
both targets share it and whatever carries it continues its own motion. -/
theorem compile_joins_motions {name : String} {cell : Cell ℝ} (hcell : cell.Rigid)
    (hcomplete : cell.Complete) {toolpaths : List (List (Target ℝ))}
    (htargets : ∀ toolpath ∈ toolpaths, ∀ target ∈ toolpath, target.Rigid)
    (hcoherent : Coherent (authoredUses toolpaths)) {stepSize : ℝ} {program : Program ℝ}
    (h : Program.compile name cell toolpaths stepSize = .ok program) {place : Nat}
    {before kept : Step ℝ} (hbefore : program.targets[place]? = some before)
    (hkept : program.targets[place + 1]? = some kept)
    (hnone : ∀ fault ∈ program.faults, fault.target ≠ place + 1) {m : Moment ℝ} (hm : m.IsStart)
    (previous : Option (List (List ℝ))) :
    ∃ solutions, cell.solve (kept.between before cell m) previous = .ok solutions ∧
      ∀ index < cell.groups.length, ∃ waypoint earlier solution,
        Step.Departure cell before kept m solutions index waypoint earlier solution := by
  obtain ⟨count, first, rest, solved, prepared, journey, hstages, rfl⟩ := exists_stages_eq h
  obtain ⟨start, next, motion, rfl, hleg⟩ := hstages.exists_leg hkept
  obtain rfl := Option.some.inj (hbefore.symm.trans hleg.start)
  have hbegun := hstages.solvedAs_start hleg
  have hended := hstages.solvedAs_target hleg (hleg.faults_motion hnone)
  have hlength := hbegun.length_waypoints.trans hended.length_waypoints.symm
  have hplaceable := hended.placeable.congr (Step.couplings_between cell m hlength)
  obtain ⟨solutions, hsolve⟩ := hplaceable.exists_solve previous
  have hrigid := hstages.rigid_targets htargets
  have hauthored := hstages.authoredIn_targets
  have hdeparts : Departs cell before motion.target m previous solutions := by
    refine ⟨hcell, hcomplete, hm, hbegun, hended, hrigid before (List.mem_of_getElem? hbefore),
      hrigid _ (List.mem_of_getElem? hkept), hleg.faultless, ?_, hsolve⟩
    intro index waypoint earlier hwaypoint hearlier hshares
    exact Frame.AuthoredIn.placement_eq hcoherent
      (hauthored _ (List.mem_of_getElem? hkept) _
        (List.mem_map_of_mem (List.mem_of_getElem? hwaypoint)))
      (hauthored before (List.mem_of_getElem? hbefore) _
        (List.mem_map_of_mem (List.mem_of_getElem? hearlier))) (beq_iff_eq.mp hshares)
  exact ⟨solutions, hsolve, fun index hindex ↦ hdeparts.exists_departure hindex⟩

/-- The frame of the motion moves on the slide, and the motion starts where it stands then. -/
theorem compile_joins_passage : ∃ program before kept solutions waypoint earlier solution,
    Program.compile "Passage" (slideCell 4) (passage 4) 1 = .ok program ∧
    program.targets[0]? = some before ∧ program.targets[1]? = some kept ∧
    (∀ fault ∈ program.faults, fault.target ≠ 1) ∧
    (slideCell 4).solve (kept.between before (slideCell 4) (.ofParts 0 4)) (some before.joints) =
      .ok solutions ∧
    Step.Departure (slideCell 4) before kept (.ofParts 0 4) solutions 0 waypoint earlier solution ∧
    waypoint.target.isLinear = true ∧ waypoint.target.frame.coupledMechanism = some 0 ∧
    solution.frame = .translation 0 0 0 ∧ waypoint.solution.frame = .translation 4 0 0 ∧
    waypoint.Joins earlier solution.frame := by
  have hlength : (0 : ℝ) ≤ 4 := by norm_num
  obtain ⟨program, before, kept, hpassage⟩ := exists_passage hlength
  have hnone := hpassage.fault_target 1
  obtain ⟨solutions, hsolve, hdeparts⟩ := compile_joins_motions (rigid_slideCell 4)
    (complete_slideCell 4) (rigid_passage 4) (coherent_passage 4) hpassage.compiled hpassage.start
    hpassage.stop hnone (Moment.isStart_ofParts 4) (some before.joints)
  obtain ⟨waypoint, earlier, solution, hdeparture⟩ := hdeparts 0 Nat.zero_lt_one
  obtain ⟨last, hlast, hpasses, hended⟩ := hpassage.passes
  obtain ⟨first, hfirst, honSlide, hbegun⟩ := hpassage.begins
  have hwaypoint := hdeparture.asks
  have hearlier := hdeparture.starts
  have hsolution := hdeparture.solves
  rw [hlast] at hwaypoint
  rw [hfirst] at hearlier
  obtain rfl := Option.some.inj hwaypoint
  obtain rfl := Option.some.inj hearlier
  obtain ⟨found, hfound, hover⟩ := hpassage.exists_over_of_solve_start hlength hsolve
  rw [hfound] at hsolution
  obtain rfl := Option.some.inj hsolution
  have hplace := (Prod.mk.inj hpasses.coupling).2
  have hshares : last.sharesFrame first = true :=
    beq_iff_eq.mpr (hpasses.key.trans honSlide.key.symm)
  exact ⟨program, before, kept, solutions, last, first, found, hpassage.compiled, hpassage.start,
    hpassage.stop, hnone, hsolve, hdeparture, hpasses.isLinear, hplace, hover.frame, hended.frame,
    hdeparture.joins (.onMechanism ⟨last, first, hdeparture.asks, hdeparture.starts, rfl, hshares⟩
      hplace)⟩

end Toolpath
