import Toolpath.Proofs.Exact.Covering
import Toolpath.Proofs.Exact.JointMotion
import Toolpath.Proofs.Playback.Rising

/-!
A workpiece that passes under a tool. The frame of a target stands on a linear table, and a straight
motion goes back in the frame as far as the table comes forward, so that the tool stays where it is
while the motion takes many substeps. The pose of the tool as the table sees it is interpolated
together with the table (`Moment.interpolatePose_passing`), and an arm in a position that the first
branch finds again is led to the same position from there (`Arm.reach_of_follow`), so that no
substep has a fault (`Travelled.passes`).
-/

set_option autoImplicit false
set_option relaxedAutoImplicit false

namespace Toolpath

/-! ### A position that is its own nearest one -/

theorem Angle.near_self (values : List ℝ) : Near values values := by
  refine List.forall₂_same.mpr fun value _ ↦ ?_
  rw [sub_self, abs_zero]
  exact Real.pi_pos

namespace Solver

variable {solver : Solver ℝ} {flange : Pose ℝ} {q : List ℝ} {configuration : Configuration}

/-- A branch that gives the position up to whole turns is followed to the position itself. -/
theorem follow_of_turned
    (hfaults : (solver.inverse flange configuration (solver.redundancy q)).faults = [])
    (hturned : Angle.Turned (solver.inverse flange configuration (solver.redundancy q)).joints q) :
    solver.follow flange q configuration = ⟨q, configuration, [], 0⟩ := by
  have hjoints := Angle.follow_eq hturned.symm (Angle.near_self q)
  have hdistance : Angle.squaredDistance q q = 0 :=
    (Angle.squaredDistance_eq_zero_iff rfl).mpr (Angle.turned_refl q)
  simp only [follow, hjoints, hfaults, hdistance]

/-- The first branch is the closest one where it is at no distance. -/
theorem closest?_of_first (h : (solver.follow flange q .empty).difference = 0) :
    solver.closest? flange q = some (solver.follow flange q .empty) := by
  obtain ⟨index, _, hclosest, _, hlower⟩ := solver.exists_closest?_eq flange q
  rcases Nat.eq_zero_or_pos index with rfl | hpos
  · exact hclosest
  · have hnearer := hlower 0 hpos
    have hfirst : Configuration.ofBranch 0 = .empty := rfl
    rw [hfirst, h] at hnearer
    exact absurd hnearer (Angle.squaredDistance_nonneg _ _).not_gt

end Solver

/-- From a position that a branch gives, the arm is led to the same position, on a way as well as
with the configuration of the branch. -/
theorem Arm.reach_of_follow {arm : Arm ℝ} {flange : Pose ℝ} {q : List ℝ}
    {configuration : Configuration} {forced : Option Configuration}
    (hfollow : arm.solver.follow flange q configuration = ⟨q, configuration, [], 0⟩)
    (hclosest : arm.solver.closest? flange q = some (arm.solver.follow flange q configuration))
    (hforced : forced = none ∨ forced = some configuration) :
    arm.reach flange forced (some q) = ⟨q, configuration, []⟩ := by
  rcases hforced with rfl | rfl
  · simp only [reach, hclosest, hfollow]
  · rw [Solver.follow, ClosestBranch.mk.injEq] at hfollow
    obtain ⟨hjoints, _, hfaults, _⟩ := hfollow
    simp only [reach, Option.map_some, Option.getD_some, hjoints, hfaults]

/-! ### The tool as the table sees it -/

theorem Pose.inverse_translation_mul (x y z : ℝ) (a : Pose ℝ) :
    (translation x y z).inverse * a = ⟨a.position - ⟨x, y, z⟩, a.rotation⟩ := by
  have hone : (1 : Rotation ℝ).inverse = 1 := by
    ext <;> simp [Rotation.inverse, Rotation.one_def]
  rw [mul_def, inverse, translation, hone, Rotation.one_apply, Rotation.one_apply, one_mul,
    neg_add_eq_sub]

/-- Between two equal rotations there is only one. -/
theorem Rotation.Proper.slerp_self {q : Rotation ℝ} (hq : q.Proper) (share : ℝ) :
    (slerp? q q share).getD (nlerp q q share) = q := by
  have hdot : q.dot q = 1 := hq
  have harc : slerpArc? q q share = some q := by
    rw [slerpArc?, hdot]
    exact if_pos le_rfl
  rw [slerp?, hdot, if_neg zero_le_one.not_gt, harc, Option.getD_some]

/-- The tool stays where it is while the table moves. -/
theorem Moment.interpolatePose_passing {a : Pose ℝ} (ha : a.Rigid) (part whole : Nat) (x y : ℝ) :
    (ofParts part whole).interpolatePose ((Pose.translation x 0 0).inverse * a)
        ((Pose.translation y 0 0).inverse * a) =
      (Pose.translation ((ofParts part whole).interpolate x y) 0 0).inverse * a := by
  simp only [Pose.inverse_translation_mul]
  rw [interpolatePose, share_ofParts, interpolate_ofParts]
  refine Pose.ext ?_ (Rotation.Proper.slerp_self ha _)
  ext <;> simp only [Vec3.mix, Vec3.add_def, Vec3.sub_def, Vec3.scale] <;> ring

/-! ### An arm over a slide -/

/-- An arm of seven axes on the floor. -/
noncomputable def bentArm : Arm ℝ :=
  ⟨"Bent", .abb, .redundant .plainRedundant,
    List.replicate 7 (.revolute 0 0 (-Scalar.fullTurn) Scalar.fullTurn 1), 1, 0⟩

/-- A table that moves along X, from zero on. -/
noncomputable def slide (length : ℝ) : Mechanism ℝ :=
  ⟨"Slide", [.prismatic 0 length 1], 1, false, .track⟩

noncomputable def slideside (length : ℝ) : Group ℝ :=
  ⟨bentArm, [slide length]⟩

noncomputable def slideCell (length : ℝ) : Cell ℝ :=
  ⟨"Slide", 1, [slideside length]⟩

section Bent

open RedundantArm

theorem follow_angular : bentArm.solver.follow angular rightAngles .empty =
    ⟨rightAngles, .empty, [], 0⟩ := by
  obtain ⟨-, hfaults, hturned⟩ :=
    turned_inverse standard_plainRedundant forward_angular regular_angular flagged_angular
  exact Solver.follow_of_turned hfaults hturned

theorem closest?_angular : bentArm.solver.closest? angular rightAngles =
    some (bentArm.solver.follow angular rightAngles .empty) :=
  Solver.closest?_of_first (by rw [follow_angular])

theorem configurationOf_rightAngles : bentArm.configurationOf rightAngles = .empty := by
  have hnear : (0 : ℝ) < angleTolerance := by norm_num [angleTolerance]
  have hflange : (bentArm.solver.forward rightAngles).getLast? = some angular := forward_angular
  simp only [Arm.configurationOf, hflange, closest?_angular, follow_angular]
  exact if_pos hnear

theorem admits_rightAngles : bentArm.Admits rightAngles := by
  have hpi := Real.pi_pos
  have hinside : ∀ value : ℝ, value = 0 ∨ value = Scalar.quarterTurn →
      (Joint.revolute 0 0 (-Scalar.fullTurn) Scalar.fullTurn 1).isInRange value = true := by
    intro value hvalue
    rw [Joint.isInRange, Bool.and_eq_true, decide_eq_true_iff, decide_eq_true_iff]
    simp only [Joint.revolute, Joint.tolerance, Exact.fullTurn_eq]
    rcases hvalue with rfl | rfl
    · constructor <;> linarith
    · rw [Exact.quarterTurn_eq]
      constructor <;> linarith
  refine ⟨rfl, outOfRange_eq_nil_iff.mpr ?_⟩
  simp [bentArm, rightAngles, List.replicate, hinside]

theorem rigid_angular : angular.Rigid :=
  rigid_chainEnd _ _

theorem solve_bentArm {target : Target ℝ} {frame : Pose ℝ} {previous : Option (List ℝ)}
    (hposition : bentArm.position target 1 frame previous = ⟨rightAngles, .empty, []⟩) :
    bentArm.solve target frame previous 1 =
      ⟨rightAngles, 1 :: (bentArm.solver.forward rightAngles).map (1 * ·), .empty, [], frame⟩ := by
  have hbase : (1 : Pose ℝ) * bentArm.base = 1 := Pose.one_mul 1
  have hinside := admits_rightAngles.inRange
  simp only [Arm.solve, hbase, hposition, limitAll_eq_self hinside, hinside, List.map_nil,
    List.append_nil]

theorem getLastD_planes_bentArm :
    ((1 : Pose ℝ) :: (bentArm.solver.forward rightAngles).map (1 * ·)).getLastD 1 = angular := by
  have hlast : (bentArm.solver.forward rightAngles).getLast? = some angular := forward_angular
  rw [List.getLastD_eq_getLast?, List.getLast?_cons, List.getLast?_map, hlast, Option.map_some,
    Option.getD_some, Option.getD_some, Pose.one_mul]

theorem solve_slide {length value : ℝ} (hlow : 0 ≤ value) (hhigh : value ≤ length) :
    (slide length).solve [value] 1 = ⟨[value], [1, .translation value 0 0], .empty, [], 1⟩ := by
  have hinside : outOfRange (slide length).joints [value] = [] := by
    have hrange : (Joint.prismatic 0 length 1).isInRange value = true := by
      rw [Joint.isInRange, Bool.and_eq_true, decide_eq_true_iff, decide_eq_true_iff]
      simp only [Joint.prismatic, Joint.tolerance]
      constructor <;> linarith
    simp [outOfRange, slide, hrange]
  have hgiven : resize (slide length).axisCount [value] = [value] := rfl
  have hbase : (1 : Pose ℝ) * (slide length).base = 1 := Pose.one_mul 1
  have hplanes : (slide length).axisPlanes 1 [value] = [.translation value 0 0] := by
    simp only [Mechanism.axisPlanes, slide, Mechanism.carriages, List.map_cons, List.map_nil,
      Pose.one_mul]
  simp only [Mechanism.solve, hgiven, limitAll_eq_self hinside, hinside, hbase, hplanes,
    List.map_nil]

end Bent

noncomputable def pause : Command ℝ :=
  .single ⟨⟨.authored 1, "Pause"⟩, false, .wait 1⟩

theorem Step.dwell_of_pause {step : Step ℝ} {target : Target ℝ} (htargets : step.targets = [target])
    (hpauses : target.instructions.filterMap Instruction.waitSeconds? = [1]) : step.dwell = 1 := by
  have hone : Scalar.maximum [(1 : ℝ)] = max 0 1 := Exact.larger_eq_max 0 1
  rw [dwell, instructions_eq, htargets, List.flatMap_singleton, hpauses, hone,
    max_eq_right zero_le_one]

/-! ### Targets and solutions over the slide -/

/-- The target is written in the coordinates of the slide, which stands at the value. -/
structure Target.OnSlide (target : Target ℝ) (value : ℝ) : Prop where
  key : target.frame.label.key = .authored 0
  pose : target.frame.pose = 1
  coupling : target.coupling = (some 0, some 0)
  tool : target.tool.tcp = 1
  external : target.external = [value]

/-- The tool as the slide sees it from the value. -/
noncomputable def passed (value : ℝ) : Pose ℝ :=
  (Pose.translation value 0 0).inverse * RedundantArm.angular

theorem distance_passed (start stop : ℝ) :
    (passed start).distance (passed stop) = |start - stop| := by
  have hapart : (passed stop).position - (passed start).position =
      ⟨start, 0, 0⟩ - ⟨stop, 0, 0⟩ := by
    simp only [passed, Pose.inverse_translation_mul]
    ext <;> simp only [Vec3.sub_def] <;> ring
  rw [Pose.distance, hapart, norm_sub_alongX]

/-- The target leaves the tool where it is. -/
structure Target.Passes (target : Target ℝ) (value : ℝ) : Prop extends target.OnSlide value where
  goal : ∃ forced, (forced = none ∨ forced = some .empty) ∧
    target.goal = .cartesian (passed value) forced .linear

namespace Target

variable {target : Target ℝ} {value : ℝ}

theorem Passes.isLinear (h : target.Passes value) : target.isLinear = true := by
  obtain ⟨_, _, hgoal⟩ := h.goal
  rw [Target.isLinear, hgoal]

theorem Passes.withConfiguration (h : target.Passes value) :
    (target.withConfiguration (some .empty)).Passes value := by
  obtain ⟨_, _, hgoal⟩ := h.goal
  rw [Target.withConfiguration, hgoal]
  exact ⟨⟨h.key, h.pose, h.coupling, h.tool, h.external⟩, some .empty, .inr rfl, rfl⟩

end Target

/-- The arm is in its position and the slide at the value. -/
structure Solution.Over (solution : Solution ℝ) (value : ℝ) : Prop where
  joints : solution.joints = RedundantArm.rightAngles ++ [value]
  tcp : solution.tcp = RedundantArm.angular
  frame : solution.frame = .translation value 0 0
  configuration : solution.configuration = .empty
  faults : solution.faults = []
  planes : ∃ rest, solution.planes = 1 :: .translation value 0 0 :: rest

section Solved

variable {length value : ℝ} {target : Target ℝ} {coupled : Option (Pose ℝ)}
  {previous : Option (List ℝ)}

open RedundantArm

/-- Whatever the target asks the arm for, it is over the slide where the arm is in its position. -/
theorem over_solve (htarget : target.OnSlide value) (hlow : 0 ≤ value) (hhigh : value ≤ length)
    (hposition : bentArm.position target 1 (.translation value 0 0) (previous.map (·.take 7)) =
      ⟨rightAngles, .empty, []⟩) :
    ((slideside length).solve 0 target coupled previous 1).Over value := by
  obtain ⟨hgroup, hmechanism⟩ := Prod.mk.inj htarget.coupling
  have hslides : Group.solveMechanisms 1 (slideside length).externals target.external =
      [⟨[value], [1, .translation value 0 0], .empty, [], 1⟩] := by
    rw [htarget.external, ← solve_slide hlow hhigh]
    rfl
  have htip : Solution.tcp (⟨[value], [1, .translation value 0 0], .empty, [], 1⟩ : Solution ℝ) =
      .translation value 0 0 := rfl
  have hframe : Group.framePose target.frame 0 coupled [.translation value 0 0] =
      .translation value 0 0 := by
    simp only [Group.framePose, hgroup, hmechanism, if_true, List.getElem?_cons_zero,
      Option.map_some, Option.getD_some, htarget.pose, Pose.mul_one]
  have hmount : Group.armParent (1 : Pose ℝ) (slideside length).externals
      [.translation value 0 0] = 1 := rfl
  have hsolved : (slideside length).solve 0 target coupled previous 1 =
      ⟨rightAngles ++ [value], [1, .translation value 0 0] ++
        (1 :: (bentArm.solver.forward rightAngles).map (1 * ·)) ++ [angular * target.tool.tcp],
        .empty, [], .translation value 0 0⟩ := by
    have haxes : (slideside length).arm.axisCount = 7 := rfl
    simp only [Group.solve, hslides, haxes, List.map_cons, List.map_nil, htip, hframe, hmount]
    rw [show (slideside length).arm = bentArm from rfl, solve_bentArm hposition, Solution.tcp,
      getLastD_planes_bentArm]
    rfl
  rw [hsolved]
  refine ⟨rfl, ?_, rfl, rfl, rfl, _, rfl⟩
  rw [Solution.tcp, List.getLastD_concat, htarget.tool, Pose.mul_one]

theorem over_solve_start (htarget : target.OnSlide value) (hlow : 0 ≤ value)
    (hhigh : value ≤ length) (hgoal : target.goal = .joints rightAngles) :
    ((slideside length).solve 0 target coupled previous 1).Over value := by
  refine over_solve htarget hlow hhigh ?_
  have hlength : rightAngles.length = bentArm.axisCount := admits_rightAngles.length
  simp only [Arm.position, hgoal, Arm.place, hlength, if_true, configurationOf_rightAngles]

theorem over_solve_passing (htarget : target.Passes value) (hlow : 0 ≤ value)
    (hhigh : value ≤ length) (before : ℝ) :
    ((slideside length).solve 0 target coupled (some (rightAngles ++ [before])) 1).Over value := by
  obtain ⟨forced, hforced, hgoal⟩ := htarget.goal
  refine over_solve htarget.toOnSlide hlow hhigh ?_
  have hflange : Arm.flangeFor 1 (.translation value 0 0) (passed value) target.tool.tcp =
      angular := by
    rw [Arm.flangeFor, htarget.tool, Pose.inverse_one, Pose.one_mul, Pose.mul_one, passed,
      Pose.mul_inverse_mul (Pose.rigid_translation value 0 0)]
  have hbefore : (some (rightAngles ++ [before])).map (·.take 7) = some rightAngles := rfl
  simp only [Arm.position, hgoal, hflange, hbefore]
  exact Arm.reach_of_follow follow_angular closest?_angular hforced

end Solved

/-! ### The motion -/

section Between

variable {waypoint previous : Waypoint ℝ} {start stop : ℝ}

/-- The previous tool centre point as the slide saw it. -/
theorem Waypoint.previousPlane_over (htarget : waypoint.target.OnSlide stop)
    (hprevious : previous.target.OnSlide start) (hstart : previous.solution.Over start) :
    waypoint.previousPlane previous = passed start := by
  have hshares : waypoint.sharesFrame previous = true :=
    beq_iff_eq.mpr (htarget.key.trans hprevious.key.symm)
  simp only [previousPlane, hshares, if_true, hstart.frame, hstart.tcp, passed]

/-- On the way to a target that leaves the tool where it is, the tool is left where it is. -/
theorem Waypoint.passes_between (htarget : waypoint.target.Passes stop)
    (hstop : waypoint.solution.Over stop) (hprevious : previous.target.OnSlide start)
    (hstart : previous.solution.Over start) (part whole : Nat) :
    (waypoint.between previous 7 (.ofParts part whole)).Passes
      ((Moment.ofParts part whole).interpolate start stop) := by
  obtain ⟨forced, -, hgoal⟩ := htarget.goal
  obtain ⟨goal, external, hbetween⟩ := Step.exists_between_eq waypoint previous 7
    (.ofParts part whole)
  have hasked := Waypoint.goal_between_linear hgoal previous 7 (.ofParts part whole)
  rw [previousPlane_over htarget.toOnSlide hprevious hstart, passed, passed,
    Moment.interpolatePose_passing rigid_angular] at hasked
  have hexternal : (waypoint.between previous 7 (.ofParts part whole)).external =
      [(Moment.ofParts part whole).interpolate start stop] := by
    show (Moment.ofParts part whole).interpolateAll (previous.solution.joints.drop 7)
      (waypoint.solution.joints.drop 7) = _
    rw [hstart.joints, hstop.joints]
    rfl
  rw [hbetween] at hasked hexternal ⊢
  exact ⟨⟨htarget.key, htarget.pose, htarget.coupling, htarget.tool, hexternal⟩,
    none, .inl rfl, hasked⟩

/-- The tool goes as far in the frame as the slide comes. -/
theorem Waypoint.pathLength_passing (htarget : waypoint.target.Passes stop)
    (hprevious : previous.target.OnSlide start) (hstart : previous.solution.Over start) :
    waypoint.pathLength previous = |start - stop| := by
  obtain ⟨forced, _, hgoal⟩ := htarget.goal
  have hplane : waypoint.plane = passed stop := by
    rw [Waypoint.plane, hgoal]
  rw [Waypoint.pathLength, previousPlane_over htarget.toOnSlide hprevious hstart, hplane,
    distance_passed]

end Between

/-- The solution of one group, over the slide somewhere. -/
def OverSlide (length : ℝ) (solutions : List (Solution ℝ)) : Prop :=
  ∃ value ∈ Set.Icc 0 length, ∃ solution, solutions = [solution] ∧ solution.Over value

/-- The step has one group, over the slide at the value. -/
def Step.Over (step : Step ℝ) (value : ℝ) : Prop :=
  ∃ waypoint, step.waypoints = [waypoint] ∧ waypoint.target.OnSlide value ∧
    waypoint.solution.Over value

/-- The step has one group, which came to the value with the tool where it was. -/
def Step.Passes (step : Step ℝ) (value : ℝ) : Prop :=
  ∃ waypoint, step.waypoints = [waypoint] ∧ waypoint.target.Passes value ∧
    waypoint.solution.Over value

namespace Step

variable {step : Step ℝ} {target : Target ℝ} {solution : Solution ℝ} {value : ℝ}

theorem Over.exists_solutions (h : step.Over value) :
    ∃ solution, step.solutions = [solution] ∧ solution.Over value := by
  obtain ⟨waypoint, hwaypoint, _, hover⟩ := h
  exact ⟨waypoint.solution, by rw [solutions, hwaypoint, List.map_singleton], hover⟩

theorem Passes.over (h : step.Passes value) : step.Over value := by
  obtain ⟨waypoint, hwaypoint, hpasses, hover⟩ := h
  exact ⟨waypoint, hwaypoint, hpasses.toOnSlide, hover⟩

theorem Over.length_waypoints (h : step.Over value) : step.waypoints.length = 1 := by
  obtain ⟨waypoint, hwaypoint, _⟩ := h
  exact congrArg List.length hwaypoint

theorem Over.joints_eq (h : step.Over value) :
    step.joints = [RedundantArm.rightAngles ++ [value]] := by
  obtain ⟨solution, hsolution, hover⟩ := h.exists_solutions
  rw [step.joints_eq, hsolution, List.map_singleton, hover.joints]

theorem exists_waypoint (htargets : step.targets = [target])
    (hsolutions : step.solutions = [solution]) : ∃ waypoint, step.waypoints = [waypoint] ∧
      waypoint.target = target ∧ waypoint.solution = solution := by
  obtain ⟨waypoint, hwaypoint, rfl⟩ := List.map_eq_singleton_iff.mp htargets
  rw [solutions, hwaypoint, List.map_singleton, List.singleton_inj] at hsolutions
  exact ⟨waypoint, hwaypoint, rfl, hsolutions⟩

theorem over_of_solved (htargets : step.targets = [target])
    (hsolutions : step.solutions = [solution]) (htarget : target.OnSlide value)
    (hsolution : solution.Over value) : step.Over value := by
  obtain ⟨waypoint, hwaypoint, rfl, rfl⟩ := exists_waypoint htargets hsolutions
  exact ⟨waypoint, hwaypoint, htarget, hsolution⟩

theorem passes_of_solved (htargets : step.targets = [target])
    (hsolutions : step.solutions = [solution]) (htarget : target.Passes value)
    (hsolution : solution.Over value) : step.Passes value := by
  obtain ⟨waypoint, hwaypoint, rfl, rfl⟩ := exists_waypoint htargets hsolutions
  exact ⟨waypoint, hwaypoint, htarget, hsolution⟩

/-- There are as many substeps as the slide takes steps. -/
theorem motionDivisions_of_passes {start stop : ℝ} {previous next : Step ℝ}
    (hprevious : previous.Over start) (hnext : next.Passes stop) (stepSize : ℝ) :
    next.motionDivisions previous stepSize =
      max 1 ⌈(|start - stop| - distanceTolerance) / stepSize⌉₊ := by
  obtain ⟨before, hbefore, honSlide, hover⟩ := hprevious
  obtain ⟨waypoint, hwaypoint, hpasses, _⟩ := hnext
  have hlength := Waypoint.pathLength_passing hpasses honSlide hover
  rw [motionDivisions, hwaypoint, hbefore, List.zipWith_cons_cons, List.zipWith_nil_left,
    List.foldl_cons, List.foldl_nil, Waypoint.divisions, hpasses.isLinear, if_pos rfl, hlength]
  rfl

end Step

section Motion

open RedundantArm

variable {length stepSize start stop value : ℝ} {previous next : Step ℝ}

theorem exists_over_of_solve {target : Target ℝ} {held : ℝ} {solutions : List (Solution ℝ)}
    (hsolve : (slideCell length).solve [target] (some [rightAngles ++ [held]]) = .ok solutions)
    (htarget : target.Passes value) (hvalue : value ∈ Set.Icc 0 length) :
    ∃ solution, solutions = [solution] ∧ solution.Over value := by
  obtain ⟨asked, coupled, hasked, hsolution⟩ := Cell.exists_solve_of_group hsolve
    (rfl : (slideCell length).groups[0]? = some (slideside length))
  obtain rfl := Option.some.inj hasked
  obtain ⟨solution, rfl⟩ := List.length_eq_one_iff.mp (Cell.length_of_solve hsolve).2
  obtain rfl := Option.some.inj hsolution
  exact ⟨_, rfl, over_solve_passing htarget hvalue.1 hvalue.2 held⟩

theorem exists_between_of_passes (hprevious : previous.Over start) (hnext : next.Passes stop)
    (length : ℝ) (number divisions : Nat) :
    ∃ target, next.between previous (slideCell length) (.ofParts number divisions) = [target] ∧
      target.Passes ((Moment.ofParts number divisions).interpolate start stop) := by
  obtain ⟨before, hbefore, honSlide, hover⟩ := hprevious
  obtain ⟨waypoint, hwaypoint, hpasses, hreached⟩ := hnext
  refine ⟨_, ?_, Waypoint.passes_between hpasses hreached honSlide hover number divisions⟩
  rw [Step.between, hwaypoint, hbefore]
  rfl

/-- A moment of the motion is solved to the arm in its position and the slide on its way. -/
theorem exists_over_of_solve_between (hprevious : previous.Over start) (hnext : next.Passes stop)
    (hstart : start ∈ Set.Icc 0 length) (hstop : stop ∈ Set.Icc 0 length) {number divisions : Nat}
    (hle : number ≤ divisions) {held : ℝ} {solutions : List (Solution ℝ)}
    (hsolve : (slideCell length).solve
      (next.between previous (slideCell length) (.ofParts number divisions))
      (some [rightAngles ++ [held]]) = .ok solutions) :
    ∃ solution, solutions = [solution] ∧
      solution.Over ((Moment.ofParts number divisions).interpolate start stop) := by
  obtain ⟨target, hbetween, hpasses⟩ :=
    exists_between_of_passes hprevious hnext length number divisions
  rw [hbetween] at hsolve
  exact exists_over_of_solve hsolve hpasses (Moment.interpolate_mem_Icc hstart hstop hle)

/-- While the slide passes, every substep leaves the arm in its position. -/
theorem over_substepsFrom (hprevious : previous.Over start) (hnext : next.Passes stop)
    (hstart : start ∈ Set.Icc 0 length) (hstop : stop ∈ Set.Icc 0 length) {divisions : Nat}
    {total : ℝ} {substeps : List (Substep ℝ)} {faults : List ProgramFault}
    (h : substepsFrom (slideCell length) previous next divisions divisions 1 previous total =
      .ok (substeps, faults)) :
    faults = [] ∧ ∀ substep ∈ substeps, OverSlide length substep.step.solutions := by
  refine substepsFrom_of_solved hnext.over.length_waypoints (P := OverSlide length) ?_
    ⟨start, hstart, hprevious.exists_solutions⟩ (by omega) h
  rintro number _ after hle ⟨held, _, solution, rfl, hheld⟩ hsolve
  rw [List.map_singleton, hheld.joints] at hsolve
  obtain ⟨reached, rfl, hsolution⟩ :=
    exists_over_of_solve_between hprevious hnext hstart hstop hle hsolve
  exact ⟨List.forall_mem_singleton.mpr hsolution.faults, _,
    Moment.interpolate_mem_Icc hstart hstop hle, reached, rfl, hsolution⟩

/-- Every substep is on the way of the slide. -/
theorem passes_substepsFrom (hprevious : previous.Over start) (hnext : next.Passes stop)
    (hstart : start ∈ Set.Icc 0 length) (hstop : stop ∈ Set.Icc 0 length) {divisions : Nat}
    {substeps : List (Substep ℝ)} {faults : List ProgramFault}
    (h : substepsFrom (slideCell length) previous next divisions divisions 1 previous
      previous.totalTime = .ok (substeps, faults)) :
    ∀ substep ∈ substeps, ∃ value ∈ Set.Icc 0 length, substep.step.Passes value := by
  obtain ⟨rfl, hover⟩ := over_substepsFrom hprevious hnext hstart hstop h
  intro substep hsubstep
  obtain ⟨place, hplace⟩ := List.mem_iff_getElem?.mp hsubstep
  obtain ⟨earlier, hearlier, hsolved⟩ := exists_solvedFrom hnext.over.length_waypoints h hplace
  have hle : 1 + place ≤ divisions := by
    have hcount := length_of_substepsFrom h
    have hlt := (List.getElem?_eq_some_iff.mp hplace).1
    omega
  obtain ⟨held, hheld⟩ : ∃ held, earlier.joints = [rightAngles ++ [held]] := by
    rcases List.mem_cons.mp (List.mem_of_getElem? hearlier) with rfl | hmem
    · exact ⟨start, hprevious.joints_eq⟩
    · obtain ⟨former, hformer, rfl⟩ := List.mem_map.mp hmem
      obtain ⟨held, _, solution, hsolution, hheld⟩ := hover former hformer
      exact ⟨held, by rw [Step.joints_eq, hsolution, List.map_singleton, hheld.joints]⟩
  have hsolve := hsolved.solve
  rw [hsolved.targets, hheld] at hsolve
  obtain ⟨solution, hsolution, hreached⟩ :=
    exists_over_of_solve_between hprevious hnext hstart hstop hle hsolve
  obtain ⟨target, htarget, hpasses⟩ :=
    exists_between_of_passes hprevious hnext length (1 + place) divisions
  exact ⟨_, Moment.interpolate_mem_Icc hstart hstop hle,
    Step.passes_of_solved (hsolved.targets.trans htarget) hsolution hpasses hreached⟩

theorem undefinedStarts_of_over (hprevious : previous.Over start) :
    next.undefinedStarts previous = [] := by
  obtain ⟨before, hbefore, _, hover⟩ := hprevious
  have hdefined : before.solution.configuration.isUndefined = false := by
    rw [hover.configuration]
    rfl
  rw [Step.undefinedStarts, hbefore, List.filterMap_eq_nil_iff]
  rintro ⟨⟨waypoint, earlier⟩, index⟩ hentry
  have hpair := List.mem_zipIdx_iff_getElem?.mp hentry
  obtain rfl := List.mem_singleton.mp
    (List.mem_of_getElem? (List.getElem?_zip_eq_some.mp hpair).2)
  simp [hdefined]

theorem length_waypoints_of_single (length : ℝ) {target : Target ℝ}
    (hnext : next.targets = [target]) :
    next.waypoints.length = (slideCell length).groups.length := by
  rw [← Step.length_targets, hnext]
  rfl

section Ended

variable (hprevious : previous.Over start) {target : Target ℝ} (hnext : next.targets = [target])
  (htarget : target.Passes stop)

include hprevious hnext htarget

theorem endTargets_of_over :
    next.endTargets previous = [target.withConfiguration (some .empty)] := by
  obtain ⟨before, hbefore, _, hover⟩ := hprevious
  obtain ⟨waypoint, hwaypoint, rfl⟩ := List.map_eq_singleton_iff.mp hnext
  rw [Step.endTargets, hwaypoint, hbefore, List.zipWith_cons_cons, htarget.isLinear, if_pos rfl,
    hover.configuration, List.zipWith_nil_left]

/-- The end of the motion is over the slide as it is asked for. -/
theorem passes_arrivedAt (hstop : stop ∈ Set.Icc 0 length) {solutions : List (Solution ℝ)}
    (hsolve : (slideCell length).solve (next.endTargets previous) (some previous.joints) =
      .ok solutions) :
    (arrivedAt previous next solutions).Passes stop ∧
      (arrivedAt previous next solutions).faults = [] := by
  have hcount := length_waypoints_of_single length hnext
  have htargets := Travelled.targets_arrivedAt hcount hsolve
  have hsolutions := Travelled.solutions_arrivedAt hcount hsolve
  rw [endTargets_of_over hprevious hnext htarget, hprevious.joints_eq] at hsolve
  obtain ⟨solution, rfl, hsolution⟩ :=
    exists_over_of_solve hsolve htarget.withConfiguration hstop
  refine ⟨Step.passes_of_solved (htargets.trans hnext) hsolutions htarget hsolution,
    Step.faults_eq_nil ?_⟩
  rw [hsolutions]
  exact List.forall_mem_singleton.mpr hsolution.faults

theorem Travelled.faults_of_passes (hstart : start ∈ Set.Icc 0 length)
    (hstop : stop ∈ Set.Icc 0 length) {motion : Travel ℝ}
    (h : Travelled (slideCell length) stepSize previous next previous.totalTime motion) :
    motion.faults = [] := by
  cases h with
  | undefined hundefined => exact absurd (undefinedStarts_of_over hprevious) hundefined
  | unreached hsolve hfaults =>
    have hreached := (passes_arrivedAt hprevious hnext htarget hstop hsolve).2
    exact absurd (ofStep_eq_nil_iff.mpr hreached) hfaults
  | completed => rfl
  | stopped hsolve _ _ hsubsteps hfaults =>
    have hpasses := (passes_arrivedAt hprevious hnext htarget hstop hsolve).1
    exact absurd (over_substepsFrom hprevious hpasses hstart hstop hsubsteps).1 hfaults

/-- A motion with the slide from where the arm is in its position keeps it there to its end. -/
theorem Travelled.passes (hstart : start ∈ Set.Icc 0 length) (hstop : stop ∈ Set.Icc 0 length)
    {motion : Travel ℝ}
    (h : Travelled (slideCell length) stepSize previous next previous.totalTime motion) :
    motion.target.Passes stop ∧
      motion.target.divisions = max 1 ⌈(|start - stop| - distanceTolerance) / stepSize⌉₊ ∧
      ∀ keyframe ∈ motion.keyframes, ∃ value ∈ Set.Icc 0 length, keyframe.Passes value := by
  obtain ⟨solutions, divisions, initial, final, hsolve, _, hdivisions, hsubsteps, rfl⟩ :=
    h.exists_divided (h.faults_of_passes hprevious hnext htarget hstart hstop)
  have hpasses := (passes_arrivedAt hprevious hnext htarget hstop hsolve).1
  have hsteps := Step.motionDivisions_of_passes hprevious hpasses stepSize
  have hevery := passes_substepsFrom hprevious hpasses hstart hstop hsubsteps
  refine ⟨?_, hdivisions.trans hsteps, fun keyframe hkeyframe ↦ ?_⟩
  · obtain ⟨waypoint, hwaypoint, hasked, hover⟩ := hpasses
    refine Step.passes_of_solved ((Prod.mk.inj (task_completeTravel _ _ _ _ _ _)).2.trans ?_)
      ((solutions_completeTravel _ _ _ _ _ _).trans ?_) hasked hover
    · rw [Step.targets, hwaypoint, List.map_singleton]
    · rw [Step.solutions, hwaypoint, List.map_singleton]
  · obtain ⟨substep, hsubstep, _, hwaypoints⟩ := exists_substep_of_mem_completeTravel hkeyframe
    obtain ⟨value, hvalue, waypoint, hwaypoint, hreached⟩ := hevery substep hsubstep
    exact ⟨value, hvalue, waypoint, hwaypoints.trans hwaypoint, hreached⟩

/-- Before its target the motion takes a time that is not negative, and the arm has seven axes, so
that every substep is a keyframe. -/
theorem Travelled.pauses (hstart : start ∈ Set.Icc 0 length) (hstop : stop ∈ Set.Icc 0 length)
    (hpauses : target.instructions.filterMap Instruction.waitSeconds? = [1])
    (htime : 0 ≤ previous.totalTime) {motion : Travel ℝ}
    (h : Travelled (slideCell length) stepSize previous next previous.totalTime motion) :
    motion.keyframes.length = motion.target.divisions + 1 ∧
      previous.totalTime + 1 ≤ motion.total := by
  obtain ⟨solutions, divisions, initial, final, hsolve, _, _, hsubsteps, rfl⟩ :=
    h.exists_divided (h.faults_of_passes hprevious hnext htarget hstart hstop)
  have hcount := length_waypoints_of_single length hnext
  have hdwell : (arrivedAt previous next solutions).dwell = 1 :=
    Step.dwell_of_pause ((targets_arrivedAt hcount hsolve).trans hnext) hpauses
  have hlength := length_of_substepsFrom hsubsteps
  have hredundant : (slideCell length).hasRedundantArm = true := rfl
  constructor
  · rw [keyframes_completeTravel, hredundant, length_stampDeltas, dwelling, hdwell,
      if_pos one_pos, turningPoints_true]
    simp only [List.map_append, List.map_singleton, List.dropLast_concat, List.length_append,
      List.length_map, List.length_singleton] at hlength ⊢
    exact congrArg (· + 1) hlength
  · have hrising := (rising_substepsFrom htime hsubsteps).mem_le
      (List.mem_map_of_mem (List.mem_append_right _ (List.mem_singleton_self final)))
    rw [total_completeTravel_eq_ite, hdwell, if_pos one_pos]
    exact add_le_add_left hrising.1 1

end Ended

end Motion

end Toolpath
