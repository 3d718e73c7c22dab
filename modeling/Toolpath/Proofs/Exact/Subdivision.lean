import Toolpath.Proofs.Exact.Departure

/-!
How a motion is divided. Its substeps are of equal shares, and there are just as many of them as the
longest straight way of all groups needs with the step size of the program
(`Step.isLeast_motionDivisions`). A group on a straight way is therefore asked for poses that lie
evenly on the line from where it comes from to its target (`Vec3.Evenly`), no further apart than the
step size, up to the tolerance that is shared by all substeps (`compile_divides_motions`).
-/

set_option autoImplicit false
set_option relaxedAutoImplicit false

namespace Toolpath

/-! ### Points on a line -/

namespace Vec3

/-- The points after `start` lie on the line to `stop`, in equal steps up to the end of it. -/
structure Evenly (start stop : Vec3 ℝ) (points : List (Vec3 ℝ)) : Prop where
  on_line : ∀ point ∈ points, ∃ share : ℝ, 0 ≤ share ∧ share ≤ 1 ∧ point = start.mix stop share
  steps : (start :: points).IsChain fun a b ↦ b - a = (stop - start).scale (1 / points.length)
  last : points.getLast? = some stop

theorem mix_zero (a b : Vec3 ℝ) : a.mix b 0 = a := by
  ext <;> simp only [mix, add_def, scale, sub_zero, mul_one, mul_zero, zero_add]

theorem mix_one (a b : Vec3 ℝ) : a.mix b 1 = b := by
  ext <;> simp only [mix, add_def, scale, mul_one, sub_self, mul_zero, add_zero]

theorem mix_sub_mix (a b : Vec3 ℝ) (s t : ℝ) : a.mix b t - a.mix b s = (b - a).scale (t - s) := by
  ext <;> simp only [mix, add_def, sub_def, scale] <;> ring

theorem norm_scale (a : Vec3 ℝ) {factor : ℝ} (h : 0 ≤ factor) :
    (a.scale factor).norm = a.norm * factor := by
  have hsquare : (a.scale factor).normSq = a.normSq * factor ^ 2 := by
    simp only [normSq, dot, scale]
    ring
  show Real.sqrt _ = Real.sqrt _ * _
  rw [hsquare, Real.sqrt_mul' _ (sq_nonneg factor), Real.sqrt_sq h]

/-- The point after some of the equal parts of the line. -/
noncomputable def parted (start stop : Vec3 ℝ) (whole part : Nat) : Vec3 ℝ :=
  start.mix stop (part / whole)

theorem parted_zero (start stop : Vec3 ℝ) (whole : Nat) : start.parted stop whole 0 = start := by
  rw [parted, Nat.cast_zero, zero_div, mix_zero]

theorem parted_self (start stop : Vec3 ℝ) {whole : Nat} (h : whole ≠ 0) :
    start.parted stop whole whole = stop := by
  rw [parted, div_self (Nat.cast_ne_zero.mpr h), mix_one]

theorem parted_succ_sub (start stop : Vec3 ℝ) (whole part : Nat) :
    start.parted stop whole (part + 1) - start.parted stop whole part =
      (stop - start).scale (1 / whole) := by
  rw [parted, parted, mix_sub_mix, ← sub_div, Nat.cast_succ, add_sub_cancel_left]

theorem evenly_parted (start stop : Vec3 ℝ) {whole : Nat} (h : whole ≠ 0) :
    Evenly start stop ((List.range whole).map fun number ↦ start.parted stop whole (number + 1)) where
  on_line := by
    refine List.forall_mem_map.mpr fun number hnumber ↦ ⟨_, by positivity, ?_, rfl⟩
    exact div_le_one_of_le₀ (Nat.cast_le.mpr (List.mem_range.mp hnumber)) (Nat.cast_nonneg whole)
  steps := by
    have hrow : start :: (List.range whole).map (fun number ↦ start.parted stop whole (number + 1)) =
        (List.range (whole + 1)).map (start.parted stop whole) := by
      rw [List.range_succ_eq_map, List.map_cons, List.map_map, parted_zero]
      rfl
    rw [hrow, List.length_map, List.length_range, List.isChain_map, List.isChain_iff_getElem]
    intro number hnumber
    rw [List.getElem_range, List.getElem_range]
    exact parted_succ_sub start stop whole number
  last := by
    obtain ⟨before, rfl⟩ := Nat.exists_eq_succ_of_ne_zero h
    rw [List.range_succ, List.map_append, List.map_singleton, List.getLast?_concat,
      parted_self start stop h]

/-- The steps along a line are parts of its length. -/
theorem Evenly.norm_steps {start stop : Vec3 ℝ} {points : List (Vec3 ℝ)}
    (h : Evenly start stop points) : (start :: points).IsChain fun a b ↦
      (b - a).norm = (stop - start).norm / points.length := by
  refine h.steps.imp fun a b hstep ↦ ?_
  rw [hstep, norm_scale _ (by positivity), mul_one_div]

end Vec3

/-! ### The number of substeps -/

theorem Waypoint.divisions_le_iff {stepSize : ℝ} (hstep : 0 < stepSize)
    (waypoint previous : Waypoint ℝ) (count : Nat) :
    waypoint.divisions previous stepSize ≤ count ↔ (waypoint.target.isLinear = true →
      waypoint.pathLength previous - distanceTolerance ≤ count * stepSize) := by
  rw [divisions]
  split_ifs with hlinear
  · rw [← div_le_iff₀ hstep, imp_iff_right hlinear]
    exact Nat.ceil_le
  · exact ⟨fun _ hother ↦ absurd hother hlinear, fun _ ↦ Nat.zero_le count⟩

namespace Step

theorem motionDivisions_le_iff {stepSize : ℝ} (hstep : 0 < stepSize) (next previous : Step ℝ)
    (count : Nat) : next.motionDivisions previous stepSize ≤ count ↔
      1 ≤ count ∧ ∀ (index : Nat) (waypoint start : Waypoint ℝ),
        next.waypoints[index]? = some waypoint → previous.waypoints[index]? = some start →
        waypoint.target.isLinear = true →
          waypoint.pathLength start - distanceTolerance ≤ count * stepSize := by
  rw [motionDivisions, foldl_max_le_iff]
  refine and_congr_right fun _ ↦ ?_
  constructor
  · intro h index waypoint start hwaypoint hstart
    refine (Waypoint.divisions_le_iff hstep waypoint start count).mp (h _ ?_)
    exact List.mem_of_getElem? (List.getElem?_zipWith_eq_some.mpr
      ⟨waypoint, start, hwaypoint, hstart, rfl⟩)
  · intro h divisions hdivisions
    obtain ⟨index, hindex⟩ := List.mem_iff_getElem?.mp hdivisions
    obtain ⟨waypoint, start, hwaypoint, hstart, rfl⟩ := List.getElem?_zipWith_eq_some.mp hindex
    exact (Waypoint.divisions_le_iff hstep waypoint start count).mpr
      (h index waypoint start hwaypoint hstart)

/-- There are no more substeps than the longest straight way needs. -/
theorem isLeast_motionDivisions {stepSize : ℝ} (hstep : 0 < stepSize) (next previous : Step ℝ) :
    IsLeast {count : Nat | 1 ≤ count ∧ ∀ (index : Nat) (waypoint start : Waypoint ℝ),
      next.waypoints[index]? = some waypoint → previous.waypoints[index]? = some start →
      waypoint.target.isLinear = true →
        waypoint.pathLength start - distanceTolerance ≤ count * stepSize}
      (next.motionDivisions previous stepSize) :=
  ⟨(motionDivisions_le_iff hstep next previous _).mp le_rfl,
    fun count hcount ↦ (motionDivisions_le_iff hstep next previous count).mpr hcount⟩

end Step

/-! ### The same targets and solutions -/

section Same

variable {step other : Step ℝ} (htargets : step.targets = other.targets)
  (hsolutions : step.solutions = other.solutions)

include htargets hsolutions

theorem Step.exists_waypoint_of_same {index : Nat} {waypoint : Waypoint ℝ}
    (h : other.waypoints[index]? = some waypoint) : ∃ own, step.waypoints[index]? = some own ∧
      own.target = waypoint.target ∧ own.solution = waypoint.solution := by
  have htarget := Step.getElem?_targets h
  have hsolution := Step.getElem?_solutions h
  rw [← htargets, Step.targets, List.getElem?_map, Option.map_eq_some_iff] at htarget
  rw [← hsolutions, Step.solutions, List.getElem?_map, Option.map_eq_some_iff] at hsolution
  obtain ⟨own, hown, htarget⟩ := htarget
  obtain ⟨held, hheld, hsolution⟩ := hsolution
  obtain rfl := Option.some.inj (hown.symm.trans hheld)
  exact ⟨own, hown, htarget, hsolution⟩

end Same

namespace Waypoint

variable {waypoint own : Waypoint ℝ} (htarget : own.target = waypoint.target)
  (hsolution : own.solution = waypoint.solution)

include htarget hsolution

theorem previousPlane_congr (previous : Waypoint ℝ) :
    own.previousPlane previous = waypoint.previousPlane previous := by
  rw [previousPlane, sharesFrame, htarget, hsolution]
  rfl

theorem pathLength_congr (previous : Waypoint ℝ) :
    own.pathLength previous = waypoint.pathLength previous := by
  rw [pathLength, previousPlane_congr htarget hsolution, plane, htarget, hsolution]
  rfl

end Waypoint

/-- What a motion is divided into depends on its targets and solutions alone. -/
theorem Step.motionDivisions_congr {step other : Step ℝ} (htargets : step.targets = other.targets)
    (hsolutions : step.solutions = other.solutions) {stepSize : ℝ} (hstep : 0 < stepSize)
    (previous : Step ℝ) :
    step.motionDivisions previous stepSize = other.motionDivisions previous stepSize := by
  refine eq_of_forall_ge_iff fun count ↦ ?_
  rw [motionDivisions_le_iff hstep, motionDivisions_le_iff hstep]
  refine and_congr_right fun _ ↦ ⟨fun h ↦ ?_, fun h ↦ ?_⟩
  · intro index waypoint start hwaypoint hstart hlinear
    obtain ⟨own, hown, htarget, hsolution⟩ :=
      exists_waypoint_of_same htargets hsolutions hwaypoint
    rw [← Waypoint.pathLength_congr htarget hsolution]
    exact h index own start hown hstart (htarget ▸ hlinear)
  · intro index waypoint start hwaypoint hstart hlinear
    obtain ⟨own, hown, htarget, hsolution⟩ :=
      exists_waypoint_of_same htargets.symm hsolutions.symm hwaypoint
    rw [← Waypoint.pathLength_congr htarget hsolution]
    exact h index own start hown hstart (htarget ▸ hlinear)

/-! ### Programs -/

/-- The motion to a kept target without faults is divided as the target as it is kept asks for. -/
theorem Travelled.exists_arrived {cell : Cell ℝ} {stepSize : ℝ} {previous next : Step ℝ}
    {motion : Travel ℝ} (h : Travelled cell stepSize previous next previous.totalTime motion)
    (hfaults : motion.faults = []) (hcount : next.waypoints.length = cell.groups.length)
    (hstep : 0 < stepSize) :
    ∃ arrived substeps, arrived.waypoints.length = cell.groups.length ∧
      arrived.task = motion.target.task ∧ arrived.solutions = motion.target.solutions ∧
      motion.target.divisions = motion.target.motionDivisions previous stepSize ∧
      substepsFrom cell previous arrived motion.target.divisions motion.target.divisions 1 previous
        previous.totalTime = .ok (substeps, []) := by
  obtain ⟨solutions, divisions, initial, final, hsolve, _, hdivisions, hsubsteps, rfl⟩ :=
    h.exists_divided hfaults
  have htask := task_completeTravel cell (arrivedAt previous next solutions) divisions
    previous.totalTime ((arrivedAt previous next solutions).endWarnings previous) (initial ++ [final])
  have hsame := solutions_completeTravel cell (arrivedAt previous next solutions) divisions
    previous.totalTime ((arrivedAt previous next solutions).endWarnings previous) (initial ++ [final])
  have hcongr := Step.motionDivisions_congr (Prod.mk.inj htask).2 hsame hstep previous
  exact ⟨arrivedAt previous next solutions, initial ++ [final], length_arrivedAt hcount hsolve,
    htask.symm, hsame.symm, hdivisions.trans hcongr.symm, hsubsteps⟩

/-- What a group on the straight way to the target `pose` of `waypoint` is asked for by the
substeps, which are solved with what they ask for. -/
structure AskedAlong (cell : Cell ℝ) (stepSize : ℝ) (start waypoint : Waypoint ℝ) (pose : Pose ℝ)
    (index : Nat) (substeps : List (Substep ℝ)) (poses : List (Pose ℝ)) : Prop where
  length : poses.length = substeps.length
  asked (number : Nat) (handed : Pose ℝ) (h : poses[number]? = some handed) :
    ∃ substep target last, substeps[number]? = some substep ∧
      cell.solve substep.step.targets (some last) = .ok substep.step.solutions ∧
      substep.step.targets[index]? = some target ∧ target.goal = .cartesian handed none .linear ∧
      target.frame = waypoint.target.frame
  evenly : Vec3.Evenly (waypoint.previousPlane start).position pose.position
    (poses.map Pose.position)
  near : (waypoint.previousPlane start :: poses).IsChain fun a b ↦
    a.distance b ≤ stepSize + distanceTolerance / substeps.length

theorem AskedAlong.congr {cell : Cell ℝ} {stepSize : ℝ} {start own waypoint : Waypoint ℝ}
    {pose : Pose ℝ} {index : Nat} {substeps : List (Substep ℝ)} {poses : List (Pose ℝ)}
    (h : AskedAlong cell stepSize start own pose index substeps poses)
    (htarget : own.target = waypoint.target) (hsolution : own.solution = waypoint.solution) :
    AskedAlong cell stepSize start waypoint pose index substeps poses := by
  have hplane := Waypoint.previousPlane_congr htarget hsolution start
  exact ⟨h.length, htarget ▸ h.asked, hplane ▸ h.evenly, hplane ▸ h.near⟩

/-- How the motion from the target `before` to the target `kept` is divided. -/
structure Program.Divided (program : Program ℝ) (before kept : Step ℝ) : Prop where
  /-- There are only as many substeps as the longest straight way needs. -/
  least : IsLeast {count : Nat | 1 ≤ count ∧ ∀ (index : Nat) (waypoint start : Waypoint ℝ),
    kept.waypoints[index]? = some waypoint → before.waypoints[index]? = some start →
    waypoint.target.isLinear = true →
      waypoint.pathLength start - distanceTolerance ≤ count * program.stepSize} kept.divisions
  alone : (∀ target ∈ kept.targets, target.isLinear = false) → kept.divisions = 1
  substeps : ∃ arrived substeps, arrived.task = kept.task ∧ arrived.solutions = kept.solutions ∧
    substepsFrom program.cell before arrived kept.divisions kept.divisions 1 before
      before.totalTime = .ok (substeps, []) ∧ substeps.length = kept.divisions ∧
    ∀ (index : Nat) (waypoint start : Waypoint ℝ) (pose : Pose ℝ) (forced : Option Configuration),
      kept.waypoints[index]? = some waypoint → before.waypoints[index]? = some start →
      waypoint.target.goal = .cartesian pose forced .linear →
        ∃ poses, AskedAlong program.cell program.stepSize start waypoint pose index substeps poses

section Asked

variable {cell : Cell ℝ} {stepSize : ℝ} {before arrived : Step ℝ} {divisions : Nat}
  {substeps : List (Substep ℝ)}
  (hsubsteps : substepsFrom cell before arrived divisions divisions 1 before before.totalTime =
    .ok (substeps, []))
  (hcount : arrived.waypoints.length = cell.groups.length) {index : Nat}
  {own start : Waypoint ℝ} (hown : arrived.waypoints[index]? = some own)
  (hstart : before.waypoints[index]? = some start)

include hsubsteps hcount hown hstart

/-- A substep asks a group on a straight way for the pose at its share of the way. -/
theorem exists_asked_of_substepsFrom {pose : Pose ℝ} {forced : Option Configuration}
    (hgoal : own.target.goal = .cartesian pose forced .linear) {number : Nat}
    (hnumber : number < divisions) :
    ∃ substep target last, substeps[number]? = some substep ∧
      cell.solve substep.step.targets (some last) = .ok substep.step.solutions ∧
      substep.step.targets[index]? = some target ∧
      target.goal = .cartesian ((Moment.ofParts (number + 1) divisions).interpolatePose
        (own.previousPlane start) pose) none .linear ∧
      target.frame = own.target.frame := by
  have hlength := length_of_substepsFrom hsubsteps
  have hsubstep := List.getElem?_eq_getElem (hlength ▸ hnumber : number < substeps.length)
  obtain ⟨last, _, hsolved⟩ := exists_solvedFrom hcount hsubsteps hsubstep
  rw [Nat.add_comm] at hsolved
  refine ⟨_, _, last.joints, hsubstep, hsolved.solve, ?_, Waypoint.goal_between_linear hgoal start
    (cell.armAxisCount index) _, Waypoint.frame_between own start _ _⟩
  rw [hsolved.targets]
  exact Step.getElem?_between hown hstart cell _

theorem exists_askedAlong {pose : Pose ℝ} {forced : Option Configuration}
    (hdivisions : divisions ≠ 0) (hnear : own.pathLength start - distanceTolerance ≤
      divisions * stepSize)
    (hgoal : own.target.goal = .cartesian pose forced .linear) :
    ∃ poses, AskedAlong cell stepSize start own pose index substeps poses := by
  have hlength := length_of_substepsFrom hsubsteps
  have hpath : own.pathLength start = (pose.position - (own.previousPlane start).position).norm := by
    rw [Waypoint.pathLength, Waypoint.plane, hgoal]
    rfl
  let poses := (List.range divisions).map fun number ↦
    (Moment.ofParts (number + 1) divisions).interpolatePose (own.previousPlane start) pose
  have hpositions : poses.map Pose.position = (List.range divisions).map fun number ↦
      (own.previousPlane start).position.parted pose.position divisions (number + 1) := by
    rw [List.map_map]
    refine List.map_congr_left fun number _ ↦ ?_
    show Vec3.mix _ _ (Moment.ofParts (number + 1) divisions).share = _
    rw [Moment.share_ofParts]
    rfl
  have hcounted : poses.length = divisions := by rw [List.length_map, List.length_range]
  have hevenly := Vec3.evenly_parted (own.previousPlane start).position pose.position hdivisions
  rw [← hpositions] at hevenly
  refine ⟨poses, hcounted.trans hlength.symm, fun number handed hhanded ↦ ?_, hevenly, ?_⟩
  · obtain ⟨hlt, rfl⟩ := List.getElem?_eq_some_iff.mp hhanded
    rw [List.getElem_map, List.getElem_range]
    exact exists_asked_of_substepsFrom hsubsteps hcount hown hstart hgoal (hcounted ▸ hlt)
  · have hsteps := hevenly.norm_steps
    rw [← List.map_cons, List.isChain_map, List.length_map, hcounted, ← hpath] at hsteps
    refine hsteps.imp fun a b hstep ↦ ?_
    have hpositive : (0 : ℝ) < divisions := Nat.cast_pos.mpr (Nat.pos_of_ne_zero hdivisions)
    calc a.distance b = own.pathLength start / divisions := hstep
      _ ≤ (divisions * stepSize + distanceTolerance) / divisions :=
        (div_le_div_iff_of_pos_right hpositive).mpr (sub_le_iff_le_add.mp hnear)
      _ = stepSize + distanceTolerance / substeps.length := by
        rw [add_div, mul_div_cancel_left₀ _ hpositive.ne', hlength]

end Asked

/-- A motion without faults has as few substeps as the step size allows, and leads every group on a
straight way evenly along the line to its target. -/
theorem compile_divides_motions {name : String} {cell : Cell ℝ}
    {toolpaths : List (List (Target ℝ))} {stepSize : ℝ} {program : Program ℝ}
    (h : Program.compile name cell toolpaths stepSize = .ok program) {place : Nat}
    {before kept : Step ℝ} (hbefore : program.targets[place]? = some before)
    (hkept : program.targets[place + 1]? = some kept)
    (hnone : ∀ fault ∈ program.faults, fault.target ≠ place + 1) :
    program.Divided before kept := by
  obtain ⟨_, _, _, _, _, _, _, hsize, _⟩ := compile_eq_ok_iff.mp h
  have hstep : 0 < stepSize := of_decide_eq_true (Bool.and_eq_true_iff.mp hsize).1
  obtain ⟨count, first, rest, solutions, prepared, journey, hstages, rfl⟩ := exists_stages_eq h
  obtain ⟨start, next, motion, rfl, hleg⟩ := hstages.exists_leg hkept
  obtain rfl := Option.some.inj (hbefore.symm.trans hleg.start)
  obtain ⟨arrived, substeps, hcount, htask, hsolutions, hdivisions, hsubsteps⟩ :=
    hleg.travelled.exists_arrived (hleg.faults_motion hnone) hleg.count hstep
  have hleast := Step.isLeast_motionDivisions hstep motion.target before
  rw [← hdivisions] at hleast
  refine ⟨hleast, fun hjoint ↦ ?_, arrived, _, htask, hsolutions, hsubsteps,
    length_of_substepsFrom hsubsteps, ?_⟩
  · refine Nat.le_antisymm (hleast.2 ⟨le_rfl, ?_⟩) hleast.1.1
    intro index waypoint earlier hwaypoint _ hlinear
    have htarget := List.mem_of_getElem? (Step.getElem?_targets hwaypoint)
    exact absurd ((hjoint _ htarget).symm.trans hlinear) Bool.false_ne_true
  · intro index waypoint earlier pose forced hwaypoint hearlier hgoal
    obtain ⟨own, hown, htarget, hsolution⟩ :=
      Step.exists_waypoint_of_same (Prod.mk.inj htask).2 hsolutions hwaypoint
    have hnear := hleast.1.2 index waypoint earlier hwaypoint hearlier
      (by rw [Target.isLinear, hgoal])
    rw [← Waypoint.pathLength_congr htarget hsolution] at hnear
    obtain ⟨poses, hasked⟩ := exists_askedAlong hsubsteps hcount hown hearlier
      (Nat.one_le_iff_ne_zero.mp hleast.1.1) hnear (htarget ▸ hgoal)
    exact ⟨poses, hasked.congr htarget hsolution⟩

/-- A way of four is divided in four by steps of one. -/
theorem compile_divides_passage : ∃ program before kept,
    Program.compile "Passage" (slideCell 4) (passage 4) 1 = .ok program ∧
    program.targets[0]? = some before ∧ program.targets[1]? = some kept ∧
    (∀ fault ∈ program.faults, fault.target ≠ 1) ∧
    (∃ waypoint earlier, kept.waypoints = [waypoint] ∧ before.waypoints = [earlier] ∧
      waypoint.target.isLinear = true ∧ waypoint.pathLength earlier = 4) ∧
    kept.divisions = 4 ∧ program.Divided before kept := by
  obtain ⟨program, before, kept, hpassage, hdivisions⟩ := exists_passage_four
  have hnone := hpassage.fault_target 1
  obtain ⟨waypoint, hwaypoint, hpasses, _⟩ := hpassage.passes
  obtain ⟨earlier, hearlier, honSlide, hover⟩ := hpassage.begins
  have hlength := Waypoint.pathLength_passing hpasses honSlide hover
  rw [zero_sub, abs_neg, abs_of_pos (by norm_num : (0 : ℝ) < 4)] at hlength
  exact ⟨program, before, kept, hpassage.compiled, hpassage.start, hpassage.stop, hnone,
    ⟨waypoint, earlier, hwaypoint, hearlier, hpasses.isLinear, hlength⟩, hdivisions,
    compile_divides_motions hpassage.compiled hpassage.start hpassage.stop hnone⟩

end Toolpath
