import Toolpath.Proofs.Exact.Following
import Toolpath.Proofs.Exact.Ranges

/-!
Groups that are solved a second time. Mechanisms asked for the values that they were solved to give
the same solutions again (`Group.solveMechanisms_joints`), and so does an arm that is asked for its
axis values (`Arm.joints_solve_of_joints`). An arm that is asked for the same pose, coming from
somewhere else, comes to the same axis values where it takes the same branch and ends near the
first start (`Arm.joints_solve_of_near`). Axis values fix the planes of a group
(`Group.planes_solve_of_joints`); hence two solutions of a step agree in the planes of a group as
soon as they do in those of the groups that its frame is coupled to
(`Cell.sharesCarrier_of_solve`).
-/

set_option autoImplicit false
set_option relaxedAutoImplicit false

namespace Toolpath

/-! ### Mechanisms -/

section Mechanisms

variable {α : Type} [Scalar α]

theorem Mechanism.solve_joints {mechanism : Mechanism α} {values : List α} {parent : Pose α}
    (hfaults : (mechanism.solve values parent).faults = []) :
    mechanism.solve (mechanism.solve values parent).joints parent =
      mechanism.solve values parent := by
  have hinside : outOfRange mechanism.joints (resize mechanism.axisCount values) = [] :=
    List.map_eq_nil_iff.mp hfaults
  have hjoints : (mechanism.solve values parent).joints = resize mechanism.axisCount values :=
    limitAll_eq_self hinside
  rw [hjoints, solve, resize_eq_self (length_resize _ _)]
  rfl

namespace Group

/-- Every mechanism finds its own values again. -/
theorem solveMechanisms_joints {parent : Pose α} {mechanisms : List (Mechanism α)} :
    ∀ {values : List α},
      (solveMechanisms parent mechanisms values).flatMap Solution.faults = [] →
        solveMechanisms parent mechanisms
            ((solveMechanisms parent mechanisms values).flatMap Solution.joints) =
          solveMechanisms parent mechanisms values := by
  induction mechanisms with
  | nil => intro values _; rfl
  | cons mechanism rest ih =>
    intro values hfaults
    rw [solveMechanisms, List.flatMap_cons, List.append_eq_nil_iff] at hfaults
    have hcount := mechanism.length_joints_solve (values.take mechanism.axisCount) parent
    have hvalues : (solveMechanisms parent (mechanism :: rest) values).flatMap Solution.joints =
        (mechanism.solve (values.take mechanism.axisCount) parent).joints ++
          (solveMechanisms parent rest (values.drop mechanism.axisCount)).flatMap Solution.joints :=
      rfl
    rw [hvalues, solveMechanisms, List.take_left' hcount, List.drop_left' hcount,
      Mechanism.solve_joints hfaults.1, ih hfaults.2, solveMechanisms]

end Group

end Mechanisms

/-! ### Arms -/

namespace Arm

variable {arm : Arm ℝ} {target other : Target ℝ} {frame parent : Pose ℝ} {previous : List ℝ}

variable {pose reached : Pose ℝ} {forced configuration : Option Configuration}
  {motion straight : Motion}

theorem configuration_solve_forced {held : Configuration}
    (hgoal : target.goal = .cartesian pose (some held) motion) (before : Option (List ℝ)) :
    (arm.solve target frame before parent).configuration = held := by
  simp only [solve, position, hgoal]
  rfl

/-- The axis values continue the branch of the configuration from the previous position. -/
theorem joints_solve_cartesian (hgoal : target.goal = .cartesian pose forced motion)
    (hfaults : (arm.solve target frame (some previous) parent).faults = []) :
    (arm.solve target frame (some previous) parent).joints = Angle.follow
      (arm.solver.inverse (flangeFor (parent * arm.base) frame pose target.tool.tcp)
        (arm.solve target frame (some previous) parent).configuration
        (arm.solver.redundancy previous)).joints previous := by
  rw [joints_solve_of_faults hfaults]
  simp only [solve, position, hgoal]
  -- Without a forced configuration the closest branch is taken, which is the branch of some
  -- configuration too.
  rcases forced with - | forced
  · obtain ⟨configuration, -, hclosest⟩ := arm.solver.exists_follow_of_closest?
      (flangeFor (parent * arm.base) frame pose target.tool.tcp) previous
    simp only [reach, hclosest]
    rfl
  · rfl

/-- The elbow of an arm with an axis too many stays where it is. -/
theorem redundancy_solve (hgoal : target.goal = .cartesian pose forced motion)
    (hfaults : (arm.solve target frame (some previous) parent).faults = [])
    (hlength : previous.length = arm.axisCount) :
    arm.solver.redundancy (arm.solve target frame (some previous) parent).joints =
      arm.solver.redundancy previous := by
  rw [joints_solve_cartesian hgoal hfaults]
  exact arm.solver.redundancy_follow _ _ hlength

/-- The same pose is reached by the same axis values, from wherever it is near on the same
branch. -/
theorem joints_solve_of_near {last : List ℝ}
    (hgoal : target.goal = .cartesian pose forced motion)
    (hother : other.goal = .cartesian reached configuration straight) (hpose : reached.Same pose)
    (htool : other.tool = target.tool)
    (hredundancy : arm.solver.redundancy last = arm.solver.redundancy previous)
    (hfaults : (arm.solve target frame (some previous) parent).faults = [])
    (hclean : (arm.solve other frame (some last) parent).faults = [])
    (hconfiguration : (arm.solve other frame (some last) parent).configuration =
      (arm.solve target frame (some previous) parent).configuration)
    (hnear : Angle.Near (arm.solve other frame (some last) parent).joints previous) :
    (arm.solve other frame (some last) parent).joints =
      (arm.solve target frame (some previous) parent).joints := by
  have hflange : (flangeFor (parent * arm.base) frame reached other.tool.tcp).Same
      (flangeFor (parent * arm.base) frame pose target.tool.tcp) := by
    rw [htool]
    exact ((Pose.Same.refl _).mul hpose).mul (Pose.Same.refl _)
  have hturned := Angle.turned_follow (arm.solver.inverse
    (flangeFor (parent * arm.base) frame reached other.tool.tcp)
    (arm.solve other frame (some last) parent).configuration (arm.solver.redundancy last)).joints
    last
  rw [← joints_solve_cartesian hother hclean, hconfiguration, hredundancy,
    arm.solver.inverse_congr hflange] at hturned
  rw [joints_solve_cartesian hgoal hfaults]
  exact (Angle.follow_eq hturned hnear).symm

end Arm

/-! ### Groups -/

namespace Group

variable {group : Group ℝ} {index : Nat} {target other : Target ℝ}
  {coupled carried : Option (Pose ℝ)} {previous before : Option (List ℝ)} {parent : Pose ℝ}

/-- The target `other` asks for the external values that `target` was solved to. -/
theorem solveMechanisms_external
    (hfaults : (group.solve index target coupled previous parent).faults = [])
    (hexternal : other.external =
      (group.solve index target coupled previous parent).joints.drop group.arm.axisCount) :
    solveMechanisms parent group.externals other.external =
      solveMechanisms parent group.externals target.external := by
  rw [faults_solve, List.append_eq_nil_iff] at hfaults
  rw [hexternal, drop_joints_solve, solveMechanisms_joints hfaults.2]

/-- Axis values fix the planes of a group. -/
theorem planes_solve_of_joints
    (hmechanisms : solveMechanisms parent group.externals other.external =
      solveMechanisms parent group.externals target.external)
    (htool : other.tool.tcp = target.tool.tcp)
    (hjoints : (group.solve index other carried before parent).joints =
      (group.solve index target coupled previous parent).joints) :
    (group.solve index other carried before parent).planes =
      (group.solve index target coupled previous parent).planes := by
  have hplanes : ∀ (asked : Target ℝ) (held : Option (Pose ℝ)) (start : Option (List ℝ)),
      (group.solve index asked held start parent).planes =
        let mount := armParent parent group.externals
          ((solveMechanisms parent group.externals asked.external).map Solution.tcp) *
            group.arm.base
        let arm := mount :: (group.arm.solver.forward
          ((group.solve index asked held start parent).joints.take group.arm.axisCount)).map
            (mount * ·)
        (solveMechanisms parent group.externals asked.external).flatMap Solution.planes ++ arm ++
          [arm.getLastD 1 * asked.tool.tcp] := by
    intro asked held start
    rw [take_joints_solve]
    rfl
  rw [hplanes, hplanes, hmechanisms, htool, hjoints]

/-- The target `other` asks for the axis values that `target` was solved to. -/
theorem joints_solve_of_joints
    (hfaults : (group.solve index target coupled previous parent).faults = [])
    (hgoal : other.goal = .joints
      ((group.solve index target coupled previous parent).joints.take group.arm.axisCount))
    (hexternal : other.external =
      (group.solve index target coupled previous parent).joints.drop group.arm.axisCount) :
    (group.solve index other carried before parent).joints =
      (group.solve index target coupled previous parent).joints :=
  (solve_asked ⟨hgoal, hexternal, admits_solve hfaults⟩ _ _ _ _).1

/-- The target `other` asks for the pose of `target`, and its solution takes the same branch and is
near the start of the motion that `target` was solved for. -/
theorem joints_solve_of_near {start last : List ℝ} {pose reached : Pose ℝ}
    {forced configuration : Option Configuration} {motion straight : Motion}
    (hgoal : target.goal = .cartesian pose forced motion)
    (hother : other.goal = .cartesian reached configuration straight) (hpose : reached.Same pose)
    (htool : other.tool = target.tool) (hframe : other.frame = target.frame)
    (hexternal : other.external =
      (group.solve index target coupled (some start) parent).joints.drop group.arm.axisCount)
    (hredundancy : group.arm.solver.redundancy (last.take group.arm.axisCount) =
      group.arm.solver.redundancy (start.take group.arm.axisCount))
    (hfaults : (group.solve index target coupled (some start) parent).faults = [])
    (hclean : (group.solve index other coupled (some last) parent).faults = [])
    (hconfiguration : (group.solve index other coupled (some last) parent).configuration =
      (group.solve index target coupled (some start) parent).configuration)
    (hnear : Angle.Near
      ((group.solve index other coupled (some last) parent).joints.take group.arm.axisCount)
      (start.take group.arm.axisCount)) :
    (group.solve index other coupled (some last) parent).joints =
      (group.solve index target coupled (some start) parent).joints := by
  have hmechanisms := solveMechanisms_external hfaults hexternal
  have hsame : group.armSolution index other coupled (some last) parent =
      group.arm.solve other (group.solve index target coupled (some start) parent).frame
        (some (last.take group.arm.axisCount)) (armParent parent group.externals
          ((solveMechanisms parent group.externals target.external).map Solution.tcp)) := by
    have hplaced : (group.solve index other coupled (some last) parent).frame =
        (group.solve index target coupled (some start) parent).frame := by
      show framePose other.frame index coupled _ = framePose target.frame index coupled _
      rw [hframe, hmechanisms]
    rw [armSolution, hplaced, hmechanisms]
    rfl
  have hfaultless := faults_armSolution hclean
  have hbranch : (group.armSolution index other coupled (some last) parent).configuration =
      (group.armSolution index target coupled (some start) parent).configuration := hconfiguration
  rw [take_joints_solve, hsame] at hnear
  rw [hsame] at hfaultless hbranch
  rw [joints_solve, joints_solve, hmechanisms, hsame]
  exact congrArg (· ++ _) (Arm.joints_solve_of_near hgoal hother hpose htool hredundancy
    (faults_armSolution hfaults) hfaultless hbranch hnear)

end Group

/-! ### Cells -/

namespace Cell

variable {α : Type} [Scalar α]

/-- The group is solved on the same plane of its carrier for the targets of both steps. -/
def SharesCarrier (cell : Cell α) (targets others : List (Target α))
    (previous before : Option (List (List α))) (solutions reached : List (Solution α))
    (index : Nat) : Prop :=
  ∃ group target other coupled, cell.groups[index]? = some group ∧
    targets[index]? = some target ∧ others[index]? = some other ∧
    solutions[index]? =
      some (group.solve index target coupled (previous.bind (·[index]?)) cell.base) ∧
    reached[index]? = some (group.solve index other coupled (before.bind (·[index]?)) cell.base)

section Again

variable {cell : Cell α} {targets others : List (Target α)}
  {previous before : Option (List (List α))} {solutions reached : List (Solution α)}

omit [Scalar α] in
theorem carrier?_congr (hframes : others.map Target.frame = targets.map Target.frame)
    (index : Nat) : carrier? others index = carrier? targets index := by
  have hentry := congrArg (·[index]?) hframes
  simp only [List.getElem?_map] at hentry
  unfold carrier?
  cases hother : others[index]? <;> cases htarget : targets[index]? <;>
    simp_all

theorem sharesCarrier_of_alone (hframes : others.map Target.frame = targets.map Target.frame)
    (hsolve : cell.solve targets previous = .ok solutions)
    (hagain : cell.solve others before = .ok reached) {index : Nat}
    (hindex : index < cell.groups.length) (hfree : carrier? targets index = none) :
    cell.SharesCarrier targets others previous before solutions reached index := by
  obtain ⟨hcount, hchecked⟩ := checked_of_solve hsolve
  obtain ⟨hotherCount, hotherChecked⟩ := checked_of_solve hagain
  have hgroup := List.getElem?_eq_getElem hindex
  have htarget := List.getElem?_eq_getElem (hcount ▸ hindex : index < targets.length)
  have hother := List.getElem?_eq_getElem (hotherCount ▸ hindex : index < others.length)
  refine ⟨_, _, _, none, hgroup, htarget, hother, ?_, ?_⟩
  · rw [getElem?_of_solve_alone hcount hchecked hsolve hindex hfree, solveGroup, hgroup, htarget]
  · rw [getElem?_of_solve_alone hotherCount hotherChecked hagain hindex
      ((carrier?_congr hframes index).trans hfree), solveGroup, hgroup, hother]

omit [Scalar α] in
theorem carrierPlane?_congr {carrier : Group α} {frame : Frame α} {solution other : Solution α}
    (h : other.planes = solution.planes) :
    carrierPlane? carrier frame other = carrierPlane? carrier frame solution := by
  unfold carrierPlane?
  rw [h]

theorem sharesCarrier_of_carried (hframes : others.map Target.frame = targets.map Target.frame)
    (hsolve : cell.solve targets previous = .ok solutions)
    (hagain : cell.solve others before = .ok reached) {index carrier : Nat}
    (hindex : index < cell.groups.length) (hcarrier : carrier? targets index = some carrier)
    (hplanes : reached[carrier]?.map Solution.planes = solutions[carrier]?.map Solution.planes) :
    cell.SharesCarrier targets others previous before solutions reached index := by
  obtain ⟨hcount, hchecked⟩ := checked_of_solve hsolve
  obtain ⟨hotherCount, hotherChecked⟩ := checked_of_solve hagain
  have hlt := (carrier?_eq_some_iff.mp hcarrier).lt hchecked
  have hgroup := List.getElem?_eq_getElem hindex
  have hcarrying := List.getElem?_eq_getElem hlt
  have htarget := List.getElem?_eq_getElem (hcount ▸ hindex : index < targets.length)
  have hother := List.getElem?_eq_getElem (hotherCount ▸ hindex : index < others.length)
  have hframe := congrArg (·[index]?) hframes
  simp only [List.getElem?_map, hother, htarget, Option.map_some, Option.some_inj] at hframe
  have hlength := (solve_eq_ok_iff cell hcount hchecked previous).mp hsolve
  have hsolution := List.getElem?_eq_getElem (hlength.1 ▸ hlt : carrier < solutions.length)
  rw [hsolution, Option.map_some, Option.map_eq_some_iff] at hplanes
  obtain ⟨found, hfound, hsame⟩ := hplanes
  refine ⟨_, _, _, carrierPlane? cell.groups[carrier] targets[index].frame solutions[carrier],
    hgroup, htarget, hother, ?_, ?_⟩
  · rw [getElem?_of_solve_carried hcount hchecked hsolve hindex hcarrier, hsolution,
      Option.bind_some, solveCarried, hcarrying, htarget]
    simp only [solveGroup, hgroup, htarget]
  · rw [getElem?_of_solve_carried hotherCount hotherChecked hagain hindex
      ((carrier?_congr hframes index).trans hcarrier), hfound, Option.bind_some, solveCarried,
      hcarrying, hother]
    simp only [solveGroup, hgroup, hother, hframe, carrierPlane?_congr hsame]

/-- Along the couplings from a group every group is solved on the same plane of its carrier, where
groups on the same plane have the same planes themselves. -/
theorem sharesCarrier_of_solve (hframes : others.map Target.frame = targets.map Target.frame)
    (hsolve : cell.solve targets previous = .ok solutions)
    (hagain : cell.solve others before = .ok reached) {P : Nat → Prop}
    (hplanes : ∀ index, P index →
      cell.SharesCarrier targets others previous before solutions reached index →
        reached[index]?.map Solution.planes = solutions[index]?.map Solution.planes)
    {links : Nat} :
    ∀ {index : Nat}, index < cell.groups.length →
      (cell.solveAfter targets previous links index).isSome →
      (∀ carrier, Relation.TransGen (Follows targets) index carrier → P carrier) →
        cell.SharesCarrier targets others previous before solutions reached index := by
  -- The induction is on the number of links after which the group is solved: the carrier is solved
  -- one link earlier.
  induction links with
  | zero => intro index _ h; simp [solveAfter] at h
  | succ links ih =>
    intro index hindex h hcarriers
    cases hcarrier : carrier? targets index with
    | none => exact sharesCarrier_of_alone hframes hsolve hagain hindex hcarrier
    | some carrier =>
      have hfollows := carrier?_eq_some_iff.mp hcarrier
      rw [solveAfter_succ_carried cell previous links hcarrier] at h
      have hafter : (cell.solveAfter targets previous links carrier).isSome := by
        by_contra hnone
        rw [Option.not_isSome_iff_eq_none.mp hnone, Option.bind_none] at h
        cases h
      refine sharesCarrier_of_carried hframes hsolve hagain hindex hcarrier ?_
      refine hplanes carrier (hcarriers carrier (.single hfollows)) ?_
      exact ih (hfollows.lt (checked_of_solve hsolve).2) hafter fun last hlast ↦
        hcarriers last (.head hfollows hlast)

end Again

end Cell

end Toolpath
