import Toolpath.Proofs.Causality
import Toolpath.Proofs.Exact.Resolved
import Toolpath.Proofs.Layout
import Toolpath.Proofs.Playback.Posing
import Toolpath.Proofs.Playback.Rising

/-!
The start of a program is a fixed point. A Cartesian target gives way to the axis values that it was
solved to, limited to their ranges; a value that was limited once stays (`Joint.limit_limit`), so
that every mechanism and every arm comes back to the same axis values, and with them to the same
planes. The planes carry the frames of other groups, whichever of the groups gave up a pose for axis
values (`Cell.map_posture_solve_anchored`). Hence solving the start again, be it at once or to play
back a program that has no other keyframe, gives the posture that is stored with it
(`start_reproduced`).
-/

set_option autoImplicit false
set_option relaxedAutoImplicit false

namespace Toolpath

variable {α : Type}

/-- Where a solution puts the axes: all of it but the faults and the configuration, which depend on
how the target was given. -/
structure Posture (α : Type) where
  joints : List α
  planes : List (Pose α)
  frame : Pose α

def Solution.posture (solution : Solution α) : Posture α :=
  ⟨solution.joints, solution.planes, solution.frame⟩

theorem Solution.posture_eq_iff {solution other : Solution α} :
    other.posture = solution.posture ↔ other.joints = solution.joints ∧
      other.planes = solution.planes ∧ other.frame = solution.frame :=
  Posture.mk.injEq _ _ _ _ _ _ ▸ Iff.rfl

variable [Scalar α]

/-! ### Values that were limited already -/

section Limits

theorem Scalar.larger_self (value : α) : larger value value = value := by
  unfold larger
  split_ifs <;> rfl

theorem Scalar.smaller_self (value : α) : smaller value value = value := by
  unfold smaller
  split_ifs <;> rfl

theorem Scalar.larger_larger (value low : α) :
    larger (larger value low) low = larger value low := by
  by_cases hbelow : value < low
  · rw [larger.eq_def value low, if_pos hbelow, larger_self]
  · by_cases hself : value ≤ value
    · rw [larger.eq_def value low, if_neg hbelow, if_pos hself, larger.eq_def value low,
        if_neg hbelow, if_pos hself]
    · rw [larger.eq_def value low, if_neg hbelow, if_neg hself, larger_self]

variable [OrderedScalar α]

omit [OrderedScalar α] in
theorem Scalar.larger_eq_or (value low : α) :
    larger value low = value ∨ larger value low = low := by
  unfold larger
  split_ifs
  · exact .inr rfl
  · exact .inl rfl
  · exact .inr rfl

omit [OrderedScalar α] in
/-- A value that is no number gives way. -/
theorem Scalar.larger_eq_of_unordered {value low : α} (h : ¬ larger value low ≤ larger value low) :
    larger value low = low := by
  unfold larger at h ⊢
  split_ifs at h ⊢ with _ hself
  · rfl
  · exact absurd hself h
  · rfl

/-- Also where an end of the range is no number. -/
theorem Joint.clamp_clamp (joint : Joint α) (value : α) :
    joint.clamp (joint.clamp value) = joint.clamp value := by
  let raised := Scalar.larger value joint.low
  by_cases hcut : joint.high < raised
  · -- The upper end is comparable, so that it is not raised further but to a lower end above it.
    have hself := (OrderedScalar.refl_of_le (OrderedScalar.le_of_lt hcut)).1
    have hclamp : joint.clamp value = joint.high := if_pos hcut
    rw [hclamp, clamp]
    by_cases hempty : joint.high < joint.low
    · rw [Scalar.larger, if_pos hempty, Scalar.smaller, if_pos hempty]
    · rw [Scalar.larger, if_neg hempty, if_pos hself, Scalar.smaller_self]
  · by_cases hordered : raised ≤ raised
    · have hclamp : joint.clamp value = raised := (if_neg hcut).trans (if_pos hordered)
      rw [hclamp, clamp, Scalar.larger_larger]
      exact hclamp
    · have hclamp : joint.clamp value = joint.high := (if_neg hcut).trans (if_neg hordered)
      have hlow : raised = joint.low := Scalar.larger_eq_of_unordered hordered
      rw [hclamp, clamp]
      rcases Scalar.larger_eq_or joint.high joint.low with hhigh | hlower
      · rw [hhigh, Scalar.smaller_self]
      · rw [hlower, ← hlow]
        exact (if_neg hcut).trans (if_neg hordered)

theorem Joint.limit_limit (joint : Joint α) (value : α) :
    joint.limit (joint.limit value) = joint.limit value := by
  by_cases hinside : joint.isInRange value = true
  · rw [limit.eq_def joint value, if_pos hinside, limit, if_pos hinside]
  · rw [limit.eq_def joint value, if_neg hinside, limit, clamp_clamp, ite_self]

theorem limitAll_limitAll (joints : List (Joint α)) (values : List α) :
    limitAll joints (limitAll joints values) = limitAll joints values := by
  fun_induction limitAll joints values with
  | case1 joints => cases joints <;> rfl
  | case2 values hnonempty => cases values <;> rfl
  | case3 joint joints value values ih => rw [limitAll, joint.limit_limit, ih]

end Limits

/-! ### Mechanisms -/

/-- The planes of a mechanism are those of its axis values. -/
theorem Mechanism.posture_solve_congr {mechanism : Mechanism α} {values others : List α}
    {parent : Pose α}
    (h : (mechanism.solve others parent).joints = (mechanism.solve values parent).joints) :
    (mechanism.solve others parent).posture = (mechanism.solve values parent).posture := by
  have hplanes : ∀ asked : List α, (mechanism.solve asked parent).planes =
      parent * mechanism.base ::
        mechanism.axisPlanes (parent * mechanism.base) (mechanism.solve asked parent).joints :=
    fun _ ↦ rfl
  refine Solution.posture_eq_iff.mpr ⟨h, ?_, rfl⟩
  rw [hplanes, hplanes, h]

section Again

variable [OrderedScalar α]

/-- A mechanism comes back to its axis values, also to those that were out of range. -/
theorem Mechanism.posture_solve_again (mechanism : Mechanism α) (values : List α)
    (parent : Pose α) :
    (mechanism.solve (mechanism.solve values parent).joints parent).posture =
      (mechanism.solve values parent).posture := by
  refine posture_solve_congr ?_
  rw [solve.eq_def mechanism (solve _ _ _).joints,
    resize_eq_self (mechanism.length_joints_solve values parent)]
  exact limitAll_limitAll mechanism.joints (resize mechanism.axisCount values)

theorem Group.postures_solveMechanisms_again (parent : Pose α) (mechanisms : List (Mechanism α)) :
    ∀ values : List α,
      (solveMechanisms parent mechanisms
          ((solveMechanisms parent mechanisms values).flatMap Solution.joints)).map
        Solution.posture = (solveMechanisms parent mechanisms values).map Solution.posture := by
  induction mechanisms with
  | nil => intro values; rfl
  | cons mechanism rest ih =>
    intro values
    have hcount := mechanism.length_joints_solve (values.take mechanism.axisCount) parent
    rw [solveMechanisms.eq_def parent (mechanism :: rest) values]
    dsimp only
    rw [List.flatMap_cons, solveMechanisms, List.take_left' hcount,
      List.drop_left' hcount, List.map_cons, List.map_cons, ih, mechanism.posture_solve_again]

end Again

/-! ### Arms -/

namespace Arm

/-- The planes of an arm are those of its axis values. -/
theorem posture_solve_congr {arm : Arm α} {target other : Target α} {frame parent : Pose α}
    {previous before : Option (List α)}
    (h : (arm.solve other frame before parent).joints =
      (arm.solve target frame previous parent).joints) :
    (arm.solve other frame before parent).posture =
      (arm.solve target frame previous parent).posture := by
  have hplanes : ∀ (asked : Target α) (start : Option (List α)),
      (arm.solve asked frame start parent).planes = parent * arm.base ::
        (arm.solver.forward (arm.solve asked frame start parent).joints).map
          (parent * arm.base * ·) :=
    fun _ _ ↦ rfl
  refine Solution.posture_eq_iff.mpr ⟨h, ?_, rfl⟩
  rw [hplanes, hplanes, h]

/-- Without a previous position no branch has to be compared with it. -/
theorem length_joints_solve_start (arm : Arm α) (target : Target α) (frame parent : Pose α) :
    (arm.solve target frame none parent).joints.length = arm.axisCount := by
  rw [solve, length_limitAll, position]
  split
  · next forced _ _ => rcases forced with - | forced <;> exact arm.solver.length_inverse _ _ _
  · rw [joints_place, length_resize]

/-- An arm comes back to its axis values, also to those that were out of range. -/
theorem posture_solve_again [OrderedScalar α] {arm : Arm α} {target other : Target α}
    {frame parent : Pose α}
    (hgoal : other.goal = .joints (arm.solve target frame none parent).joints) :
    (arm.solve other frame none parent).posture = (arm.solve target frame none parent).posture := by
  refine posture_solve_congr ?_
  have hposition : (arm.position other (parent * arm.base) frame none).joints =
      (arm.solve target frame none parent).joints := by
    unfold position
    simp only [hgoal, joints_place,
      resize_eq_self (arm.length_joints_solve_start target frame parent)]
  rw [solve.eq_def arm other]
  dsimp only
  rw [hposition]
  exact limitAll_limitAll arm.joints (arm.position target (parent * arm.base) frame none).joints

end Arm

/-! ### Groups -/

namespace Group

section Start

variable (group : Group α) (index : Nat) (target : Target α) (coupled : Option (Pose α))
  (parent : Pose α)

theorem take_joints_solve_start :
    (group.solve index target coupled none parent).joints.take group.arm.axisCount =
      (group.armSolution index target coupled none parent).joints := by
  rw [joints_solve]
  exact List.take_left' (group.arm.length_joints_solve_start _ _ _)

theorem drop_joints_solve_start :
    (group.solve index target coupled none parent).joints.drop group.arm.axisCount =
      (solveMechanisms parent group.externals target.external).flatMap Solution.joints := by
  rw [joints_solve]
  exact List.drop_left' (group.arm.length_joints_solve_start _ _ _)

end Start

variable {group : Group α} {index : Nat} {target other : Target α} {coupled : Option (Pose α)}
  {parent : Pose α}

/-- The posture of a group is put together from those of its arm and of its mechanisms. -/
theorem posture_solve_congr {previous before : Option (List α)}
    (harm : (group.armSolution index other coupled before parent).posture =
      (group.armSolution index target coupled previous parent).posture)
    (hmechanisms : (solveMechanisms parent group.externals other.external).map Solution.posture =
      (solveMechanisms parent group.externals target.external).map Solution.posture)
    (htool : other.tool = target.tool) :
    (group.solve index other coupled before parent).posture =
      (group.solve index target coupled previous parent).posture := by
  obtain ⟨hjoints, hplanes, hframe⟩ := Solution.posture_eq_iff.mp harm
  have hvalues := congrArg (List.flatMap Posture.joints) hmechanisms
  have hrow := congrArg (List.flatMap Posture.planes) hmechanisms
  rw [List.flatMap_map, List.flatMap_map] at hvalues hrow
  have hparts : ∀ (asked : Target α) (start : Option (List α)),
      (group.solve index asked coupled start parent).planes =
        (solveMechanisms parent group.externals asked.external).flatMap Solution.planes ++
          (group.armSolution index asked coupled start parent).planes ++
          [(group.armSolution index asked coupled start parent).planes.getLastD 1 *
            asked.tool.tcp] :=
    fun _ _ ↦ rfl
  refine Solution.posture_eq_iff.mpr ⟨?_, ?_, hframe⟩
  · rw [joints_solve, joints_solve, hjoints]
    exact congrArg (_ ++ ·) hvalues
  · rw [hparts, hparts, hplanes, htool]
    exact congrArg (· ++ _ ++ _) hrow

/-- A group comes back to its axis values. -/
theorem posture_solve_again [OrderedScalar α]
    (hgoal : other.goal = .joints
      ((group.solve index target coupled none parent).joints.take group.arm.axisCount))
    (hexternal : other.external =
      (group.solve index target coupled none parent).joints.drop group.arm.axisCount)
    (htool : other.tool = target.tool) (hframe : other.frame = target.frame) :
    (group.solve index other coupled none parent).posture =
      (group.solve index target coupled none parent).posture := by
  rw [take_joints_solve_start] at hgoal
  rw [drop_joints_solve_start] at hexternal
  have hmechanisms : (solveMechanisms parent group.externals other.external).map
      Solution.posture = (solveMechanisms parent group.externals target.external).map
        Solution.posture := by
    rw [hexternal, postures_solveMechanisms_again]
  have htips := congrArg (List.map fun posture : Posture α ↦ posture.planes.getLastD 1) hmechanisms
  rw [List.map_map, List.map_map] at htips
  have hplaced : (group.solve index other coupled none parent).frame =
      (group.solve index target coupled none parent).frame := by
    show framePose other.frame index coupled _ = framePose target.frame index coupled _
    rw [hframe]
    exact congrArg (framePose target.frame index coupled) htips
  have hmount : armParent parent group.externals
      ((solveMechanisms parent group.externals other.external).map Solution.tcp) =
        armParent parent group.externals
          ((solveMechanisms parent group.externals target.external).map Solution.tcp) :=
    congrArg (armParent parent group.externals) htips
  refine posture_solve_congr ?_ hmechanisms htool
  rw [armSolution, hplaced, hmount]
  exact Arm.posture_solve_again hgoal

end Group

/-! ### Cells -/

namespace Cell

section Anchored

variable {cell : Cell α} {targets : List (Target α)} {solutions again : List (Solution α)}

omit [Scalar α] in
theorem getElem?_anchoredTargets {index : Nat} {target : Target α} {solution : Solution α}
    (htarget : targets[index]? = some target) (hsolution : solutions[index]? = some solution) :
    (cell.anchoredTargets targets solutions)[index]? =
      some (anchorTarget cell index target solution) := by
  have hentry : (targets.zip solutions)[index]? = some (target, solution) :=
    List.getElem?_zip_eq_some.mpr ⟨htarget, hsolution⟩
  rw [anchoredTargets, List.getElem?_map, List.getElem?_zipIdx, hentry]
  simp only [Option.map_some, Nat.zero_add]

omit [Scalar α] in
theorem isCartesian_of_mem_anchoredTargets {target : Target α}
    (h : target ∈ cell.anchoredTargets targets solutions) : target.isCartesian = false := by
  obtain ⟨entry, -, rfl⟩ := List.mem_map.mp h
  unfold anchorTarget
  split_ifs with hcartesian
  · rfl
  · exact Bool.eq_false_of_not_eq_true hcartesian

omit [Scalar α] in
theorem map_frame_anchoredTargets (hcount : solutions.length = targets.length) :
    (cell.anchoredTargets targets solutions).map Target.frame = targets.map Target.frame := by
  refine List.ext_getElem (by simp [anchoredTargets, hcount]) fun index _ _ ↦ ?_
  simp only [anchoredTargets, List.getElem_map, List.getElem_zipIdx, List.getElem_zip, anchorTarget]
  split_ifs <;> rfl

variable [OrderedScalar α]

theorem posture_of_sharesCarrier {index : Nat}
    (h : cell.SharesCarrier targets (cell.anchoredTargets targets solutions) none none solutions
      again index) :
    again[index]?.map Solution.posture = solutions[index]?.map Solution.posture := by
  obtain ⟨group, target, other, coupled, hgroup, htarget, hother, hsolution, hagain⟩ := h
  obtain rfl := Option.some.inj ((getElem?_anchoredTargets htarget hsolution).symm.trans hother)
  have haxes : cell.armAxisCount index = group.arm.axisCount := armAxisCount_of_getElem? hgroup
  rw [hagain, hsolution, Option.map_some, Option.map_some, Option.some_inj]
  by_cases hcartesian : target.isCartesian = true
  · rw [anchorTarget, if_pos hcartesian, haxes]
    exact Group.posture_solve_again rfl rfl rfl rfl
  · rw [anchorTarget, if_neg hcartesian]

/-- A step whose Cartesian targets gave way to the axis values that they were solved to is solved to
the same posture again. -/
theorem exists_solve_anchored (hsolve : cell.solve targets none = .ok solutions) :
    ∃ again, cell.solve (cell.anchoredTargets targets solutions) none = .ok again ∧
      again.map Solution.posture = solutions.map Solution.posture := by
  obtain ⟨hcount, hchecked⟩ := checked_of_solve hsolve
  obtain ⟨hlength, hall⟩ := (solve_eq_ok_iff cell hcount hchecked none).mp hsolve
  have hframes : (cell.anchoredTargets targets solutions).map Target.frame =
      targets.map Target.frame := map_frame_anchoredTargets (hlength.trans hcount.symm)
  have hcouplings : (cell.anchoredTargets targets solutions).map Target.coupling =
      targets.map Target.coupling := by
    have hpairs := congrArg
      (List.map fun frame : Frame α ↦ (frame.coupledGroup, frame.coupledMechanism)) hframes
    rwa [List.map_map, List.map_map] at hpairs
  obtain ⟨again, hagain⟩ := ((placeable_of_solve hsolve).congr hcouplings).exists_solve none
  have hagainLength := (length_of_solve hagain).2
  refine ⟨again, hagain, List.ext_getElem? fun index ↦ ?_⟩
  rw [List.getElem?_map, List.getElem?_map]
  by_cases hindex : index < cell.groups.length
  · have hafter : (cell.solveAfter targets none cell.groups.length index).isSome := by
      rw [hall index hindex, List.getElem?_eq_getElem (hlength ▸ hindex)]
      rfl
    refine posture_of_sharesCarrier (sharesCarrier_of_solve (P := fun _ ↦ True) hframes hsolve
      hagain (fun carrier _ hshares ↦ ?_) hindex hafter fun _ _ ↦ trivial)
    have hplanes := congrArg (Option.map Posture.planes) (posture_of_sharesCarrier hshares)
    rwa [Option.map_map, Option.map_map] at hplanes
  · rw [List.getElem?_eq_none (hagainLength.symm ▸ Nat.le_of_not_lt hindex),
      List.getElem?_eq_none (hlength.symm ▸ Nat.le_of_not_lt hindex)]

end Anchored

end Cell

/-! ### The start of a program -/

section Start

variable {cell : Cell α} {first : Step α} {solutions : List (Solution α)}

theorem length_waypoints_of_solve {previous : Option (List (List α))}
    (h : cell.solve first.targets previous = .ok solutions) :
    solutions.length = first.waypoints.length := by
  obtain ⟨htargets, hsolutions⟩ := Cell.length_of_solve h
  rw [hsolutions, ← htargets, Step.length_targets]

theorem exists_anchored {start : Step α} {warnings : List (Warning α)}
    (h : anchor cell first = .ok (start, warnings)) :
    ∃ solutions, cell.solve first.targets none = .ok solutions ∧
      start = anchored cell first solutions := by
  obtain ⟨solutions, hsolve, hstart⟩ := bind_eq_ok_iff.mp h
  exact ⟨solutions, hsolve, (Prod.mk.inj (Except.ok.inj hstart)).1.symm⟩

/-- A start that can be solved can be anchored. -/
theorem exists_anchor (h : cell.solve first.targets none = .ok solutions) :
    ∃ warnings, anchor cell first = .ok (anchored cell first solutions, warnings) := by
  rw [anchor, h]
  exact ⟨_, rfl⟩

omit [Scalar α] in
/-- Joint targets have no configuration to clear. -/
theorem targets_cleared_of_joints {step : Step α}
    (h : ∀ target ∈ step.targets, target.isCartesian = false) :
    (step.mapTargets fun _ target ↦
      if hasIdleConfiguration target then target.withConfiguration none else target).targets =
        step.targets := by
  rw [Step.targets_mapTargets_const]
  refine (List.map_congr_left fun target htarget ↦ ?_).trans (List.map_id _)
  have hjoints := h target htarget
  unfold Target.isCartesian at hjoints
  split at hjoints
  · cases hjoints
  · next values hgoal => simp only [hasIdleConfiguration, Target.isLinear, hgoal]; rfl

variable {rest : List (Step α)} {prepared : PreparedProgram α}

/-- Apart from names the prepared start is the anchored one. -/
theorem Prepares.withoutNames_first (h : Prepares cell first rest solutions prepared) :
    prepared.first.targets.map Recast.withoutNames.target =
      (cell.anchoredTargets (first.mapTargets (fitExternal cell)).targets solutions).map
        Recast.withoutNames.target := by
  have hcount := length_waypoints_of_solve h.solve
  have hsteps := h.withoutNames_take 0
  simp only [List.take_zero, List.map_cons, List.map_nil, readied, clearConfigurations,
    List.cons.injEq, and_true] at hsteps
  have htargets := congrArg Step.targets hsteps
  rw [← Recast.step_withoutNames, Recast.targets_step, Recast.targets_step,
    targets_cleared_of_joints, targets_anchored hcount] at htargets
  · exact htargets
  · rw [targets_anchored hcount]
    exact fun target ↦ Cell.isCartesian_of_mem_anchoredTargets

/-- The prepared start is solved to the posture that is stored with it. -/
theorem Prepares.exists_solve_first [OrderedScalar α]
    (h : Prepares cell first rest solutions prepared)
    (hcount : first.waypoints.length = cell.groups.length) :
    ∃ again, cell.solve prepared.first.targets none = .ok again ∧
      again.map Solution.posture = prepared.first.solutions.map Solution.posture := by
  obtain ⟨again, hagain, hposture⟩ := Cell.exists_solve_anchored h.solve
  have hnameless : cell.solve (prepared.first.targets.map Recast.withoutNames.target) none = _ :=
    Recast.solve_withoutNames prepared.first.targets none
  rw [h.withoutNames_first, Recast.solve_withoutNames, hagain] at hnameless
  refine ⟨again, ?_, h.solutions_first hcount ▸ hposture⟩
  cases hsolve : cell.solve prepared.first.targets none with
  | error error =>
    rw [hsolve] at hnameless
    cases hnameless
  | ok found =>
    rw [hsolve] at hnameless
    have hfound : again.map id = found.map id := Except.ok.inj hnameless
    rw [List.map_id, List.map_id] at hfound
    rw [hfound]

end Start

namespace Stages

variable {cell : Cell α} {toolpaths : List (List (Target α))} {stepSize : α} {count : Nat}
  {first : Step α} {rest : List (Step α)} {solutions : List (Solution α)}
  {prepared : PreparedProgram α} {journey : Journey α}
  (h : Stages cell toolpaths stepSize count first rest solutions prepared journey)

include h

/-- The only keyframe is the start. -/
theorem eq_first_of_only {only : Step α} (honly : journey.keyframes = [only]) :
    only.targets = prepared.first.targets ∧ only.solutions = prepared.first.solutions := by
  rcases timeline_motions h.timeline with ⟨-, rfl⟩ | ⟨-, motions, -, rfl⟩
  · obtain rfl := List.singleton_inj.mp honly
    exact ⟨rfl, rfl⟩
  · have hmem : only ∈ startKeyframes prepared.first := by
      obtain ⟨held, hheld⟩ := List.exists_mem_of_ne_nil _ (startKeyframes_ne_nil prepared.first)
      have hentry := List.mem_append_left (motions.flatMap Travel.keyframes) hheld
      change startKeyframes prepared.first ++ motions.flatMap Travel.keyframes = [only] at honly
      rw [honly] at hentry
      exact List.mem_singleton.mp hentry ▸ hheld
    exact ⟨targets_of_mem_startKeyframes _ only hmem, solutions_of_mem_startKeyframes _ only hmem⟩

/-- Without a dwell a single target is the only keyframe. -/
theorem exists_only (hrest : prepared.rest = []) (hdwell : ¬ 0 < prepared.first.dwell) :
    ∃ only, journey.keyframes = [only] := by
  rcases timeline_motions h.timeline with ⟨-, rfl⟩ | ⟨-, motions, hmotions, rfl⟩
  · exact ⟨_, rfl⟩
  · rw [hrest] at hmotions
    obtain rfl : motions = [] := List.length_eq_zero_iff.mp (Nat.le_zero.mp hmotions.length_le)
    refine ⟨{ prepared.first with totalTime := 0 }, ?_⟩
    rw [List.flatMap_nil, List.append_nil, startKeyframes, if_neg hdwell]

end Stages

/-- Without commands there is nothing to wait for. -/
theorem Step.dwell_eq_zero {step : Step α} (h : ∀ target ∈ step.targets, target.command = none) :
    step.dwell = 0 := by
  have hnone : step.instructions = [] := by
    refine List.flatMap_eq_nil_iff.mpr fun waypoint hwaypoint ↦ ?_
    rw [Target.instructions, h _ (List.mem_map_of_mem hwaypoint)]
    rfl
  rw [dwell, hnone]
  rfl

/-- The start of a program is a fixed point. Solved again from nowhere, the targets that it was
rewritten to give every group the axis values, the planes and the frame that are stored with them,
whether the first solution had faults or not: also where axes were moved into their range, where a
frame is carried by another group, and where joint targets stay as they were given, with however
many values. A program with no other keyframe is therefore played back in the stored posture. -/
theorem start_reproduced [OrderedScalar α] (cell : Cell α) :
    (∀ (first start : Step α) (warnings : List (Warning α)),
      anchor cell first = .ok (start, warnings) →
        ∃ again, cell.solve start.targets none = .ok again ∧
          again.map Solution.posture = start.solutions.map Solution.posture) ∧
    ∀ (name : String) (toolpaths : List (List (Target α))) (stepSize : α) (program : Program α)
      (only : Step α), Program.compile name cell toolpaths stepSize = .ok program →
        program.keyframes = [only] →
          ∀ (playback : Playback α) (time : α) (normalized : Bool), ∃ snapshot,
            (playback.animate program time normalized).2 = .ok snapshot ∧
            snapshot.solutions.map Solution.posture = only.solutions.map Solution.posture := by
  constructor
  · intro first start warnings hanchor
    obtain ⟨solutions, hsolve, rfl⟩ := exists_anchored hanchor
    have hcount := length_waypoints_of_solve hsolve
    rw [targets_anchored hcount, solutions_anchored hcount]
    exact Cell.exists_solve_anchored hsolve
  · intro name toolpaths stepSize program only hcompile hkeyframes playback time normalized
    obtain ⟨count, first, rest, solutions, prepared, journey, hstages, rfl⟩ :=
      exists_stages_eq hcompile
    obtain ⟨htargets, hsolutions⟩ := hstages.eq_first_of_only hkeyframes
    obtain ⟨again, hagain, hposture⟩ := hstages.prepares.exists_solve_first
      (hstages.length_waypoints first List.mem_cons_self)
    rw [← htargets] at hagain
    rw [playback.animate_still hkeyframes hagain]
    exact ⟨_, rfl, hsolutions ▸ hposture⟩

/-- The track stands at its end, and the second arm has too few joint values, in a frame on the
table of the first. -/
theorem start_reproduced_workshop :
    (∃ start warnings again,
      anchor workshop (.ofTargets 0 workshopTargets) = .ok (start, warnings) ∧
      workshop.solve start.targets none = .ok again ∧
      again.map Solution.posture = start.solutions.map Solution.posture) ∧
    ∃ program only, Program.compile "Opening" workshop (workshopTargets.map fun target ↦ [target])
        1 = .ok program ∧ program.keyframes = [only] ∧
      ∃ snapshot, (Playback.start.animate program (-1) false).2 = .ok snapshot ∧
        snapshot.solutions.map Solution.posture = only.solutions.map Solution.posture := by
  obtain ⟨hanchor, hplayback⟩ := start_reproduced workshop
  obtain ⟨solutions, hsolve⟩ := exists_solve_workshop none
  constructor
  · have hstart : workshop.solve (Step.ofTargets 0 workshopTargets).targets none = .ok solutions :=
      hsolve
    obtain ⟨warnings, hanchored⟩ := exists_anchor hstart
    obtain ⟨again, hagain, hposture⟩ := hanchor _ _ _ hanchored
    exact ⟨_, warnings, again, hanchored, hagain, hposture⟩
  · have hsize : isStepSize (1 : ℝ) = true := by simp [isStepSize, Exact.isFinite_eq_true]
    have hcount : toolpathLength (workshopTargets.map fun target ↦ [target]) = .ok 1 := rfl
    have hgroups : (workshopTargets.map fun target ↦ [target]).length = workshop.groups.length :=
      rfl
    obtain ⟨program, hprogram⟩ := exists_compile "Opening" hgroups hcount hsize fun step hstep ↦ by
      obtain rfl := List.mem_singleton.mp hstep
      exact Cell.placeable_of_solve hsolve
    obtain ⟨count, first, rest, reached, prepared, journey, hstages, rfl⟩ :=
      exists_stages_eq hprogram
    obtain rfl : 1 = count := Except.ok.inj hstages.length
    obtain rfl : Step.ofTargets 0 workshopTargets = first := (List.cons.inj hstages.steps).1
    have hrest : prepared.rest = [] :=
      List.length_eq_zero_iff.mp (Nat.succ.inj hstages.length_rest)
    have hcommands := hstages.prepares.map_targets_first (f := fun target ↦ target.command.isNone)
      (fun _ _ ↦ rfl) (fun target _ ↦ by unfold Target.withConfiguration; split <;> rfl)
      (fun _ _ ↦ rfl) (fun _ _ ↦ Option.isNone_map)
      (length_waypoints_of_solve hstages.prepares.solve)
    have hdwell : prepared.first.dwell = 0 := by
      refine Step.dwell_eq_zero fun target htarget ↦ ?_
      have hentry := List.mem_map_of_mem (f := fun target ↦ target.command.isNone) htarget
      rw [hcommands] at hentry
      obtain ⟨given, hgiven, hsame⟩ := List.mem_map.mp hentry
      rcases List.mem_pair.mp hgiven with rfl | rfl <;>
        exact Option.isNone_iff_eq_none.mp hsame.symm
    obtain ⟨only, honly⟩ := hstages.exists_only hrest hdwell.not_gt
    obtain ⟨snapshot, hsnapshot, hposture⟩ :=
      hplayback _ _ _ _ _ hprogram honly Playback.start (-1) false
    exact ⟨_, only, hprogram, honly, snapshot, hsnapshot, hposture⟩

end Toolpath
