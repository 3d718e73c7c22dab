import Toolpath.Proofs.Compilation

/-!
Steps that can be solved. Whether a step of a cell has a solution depends on nothing but the
couplings of its frames (`Placeable.congr`), and those stay as they are while a program is
compiled. Hence a program with as many toolpaths as the cell has groups, all of one length, whose
couplings are placeable at every index compiles (`exists_compile`), with or without faults.
-/

set_option autoImplicit false
set_option relaxedAutoImplicit false

namespace Toolpath

variable {α : Type}

/-! ### Placeable targets -/

/-- The group and the mechanism that the frame of a target is coupled to. -/
def Target.coupling (target : Target α) : Option Nat × Option Nat :=
  (target.frame.coupledGroup, target.frame.coupledMechanism)

theorem Target.frame_withConfiguration (target : Target α)
    (configuration : Option Configuration) :
    (target.withConfiguration configuration).frame = target.frame := by
  unfold Target.withConfiguration
  split <;> rfl

theorem Target.coupling_withConfiguration (target : Target α)
    (configuration : Option Configuration) :
    (target.withConfiguration configuration).coupling = target.coupling := by
  rw [coupling, frame_withConfiguration, coupling]

namespace Cell

/-- A step with these targets can be solved. -/
structure Placeable (cell : Cell α) (targets : List (Target α)) : Prop where
  count : targets.length = cell.groups.length
  frames : cell.checkFrames targets = .ok ()
  noLoop : ¬ HasLoop targets

theorem checkFrame_eq_ok_congr {cell : Cell α} {frame other : Frame α} {group : Nat}
    (hgroup : frame.coupledGroup = other.coupledGroup)
    (hmechanism : frame.coupledMechanism = other.coupledMechanism)
    (h : cell.checkFrame frame group = .ok ()) : cell.checkFrame other group = .ok () := by
  rw [checkFrame, hgroup, hmechanism] at h
  unfold checkFrame
  split at h
  · split_ifs at h ⊢
    rfl
  · split at h
    · cases h
    · split at h <;> split_ifs at h ⊢ <;> rfl

theorem follows_iff_coupling {targets : List (Target α)} {group carrier : Nat} :
    Follows targets group carrier ↔ ∃ coupling, (targets.map Target.coupling)[group]? =
      some coupling ∧ coupling.1 = some carrier ∧ carrier ≠ group := by
  simp [Follows, List.getElem?_map, Target.coupling]

theorem follows_congr {targets others : List (Target α)}
    (hcouplings : others.map Target.coupling = targets.map Target.coupling) :
    Follows others = Follows targets := by
  funext group carrier
  rw [eq_iff_iff, follows_iff_coupling, hcouplings, follows_iff_coupling]

theorem Placeable.congr {cell : Cell α} {targets others : List (Target α)}
    (hcouplings : others.map Target.coupling = targets.map Target.coupling)
    (h : cell.Placeable targets) : cell.Placeable others where
  count := by
    rw [← h.count, ← List.length_map Target.coupling, hcouplings, List.length_map]
  frames := by
    rw [checkFrames_eq_ok_iff]
    intro group other hother
    have hentry := congrArg (·[group]?) hcouplings
    simp only [List.getElem?_map, hother, Option.map_some] at hentry
    obtain ⟨target, htarget, hcoupling⟩ := Option.map_eq_some_iff.mp hentry.symm
    obtain ⟨hgroup, hmechanism⟩ := Prod.mk.inj hcoupling
    exact checkFrame_eq_ok_congr hgroup hmechanism
      (checkFrames_eq_ok_iff.mp h.frames group target htarget)
  noLoop := by
    rw [HasLoop, follows_congr hcouplings]
    exact h.noLoop

/-- Targets in uncoupled frames wait for nothing. -/
theorem placeable_of_uncoupled {cell : Cell α} {targets : List (Target α)}
    (hcount : targets.length = cell.groups.length)
    (huncoupled : ∀ target ∈ targets, target.coupling = (none, none)) :
    cell.Placeable targets where
  count := hcount
  frames := by
    rw [checkFrames_eq_ok_iff]
    intro group target htarget
    obtain ⟨hgroup, hmechanism⟩ :=
      Prod.mk.inj (huncoupled target (List.mem_of_getElem? htarget))
    rw [checkFrame, hgroup, hmechanism]
    rfl
  noLoop := by
    refine not_hasLoop_of_lt fun group carrier hfollows ↦ ?_
    obtain ⟨target, htarget, hcoupled, _⟩ := hfollows
    have hgroup := (Prod.mk.inj (huncoupled target (List.mem_of_getElem? htarget))).1
    rw [hgroup] at hcoupled
    cases hcoupled

theorem Placeable.exists_solve [Scalar α] {cell : Cell α} {targets : List (Target α)}
    (h : cell.Placeable targets) (previous : Option (List (List α))) :
    ∃ solutions, cell.solve targets previous = .ok solutions :=
  exists_solve_of_not_hasLoop cell h.count h.frames previous h.noLoop

theorem placeable_of_solve [Scalar α] {cell : Cell α} {targets : List (Target α)}
    {previous : Option (List (List α))} {solutions : List (Solution α)}
    (h : cell.solve targets previous = .ok solutions) : cell.Placeable targets := by
  obtain ⟨hcount, hframes⟩ := checked_of_solve h
  refine ⟨hcount, hframes, fun hloop ↦ ?_⟩
  rw [(solve_eq_loop_iff cell hcount hframes previous).mpr hloop] at h
  cases h

end Cell

/-! ### Placeable steps on the way -/

namespace Step

theorem map_targets_endTargets {β : Type} {f : Target α → β}
    (hf : ∀ target configuration, f (target.withConfiguration configuration) = f target)
    {next previous : Step α} (h : next.waypoints.length ≤ previous.waypoints.length) :
    (next.endTargets previous).map f = next.targets.map f := by
  refine List.ext_getElem (by simp [endTargets, h]) fun group _ _ ↦ ?_
  simp only [endTargets, Step.targets, List.getElem_map, List.getElem_zipWith]
  split_ifs
  · exact hf _ _
  · rfl

theorem couplings_endTargets {next previous : Step α}
    (h : previous.waypoints.length = next.waypoints.length) :
    (next.endTargets previous).map Target.coupling = next.targets.map Target.coupling :=
  map_targets_endTargets Target.coupling_withConfiguration h.ge

/-- On the way a target changes in nothing but its goal and its external values. -/
theorem exists_between_eq [Scalar α] (waypoint previous : Waypoint α) (armAxes : Nat)
    (m : Moment α) : ∃ goal external,
      waypoint.between previous armAxes m = { waypoint.target with goal, external } := by
  unfold Waypoint.between
  split <;> exact ⟨_, _, rfl⟩

theorem getElem?_between [Scalar α] {next previous : Step α} {index : Nat}
    {waypoint before : Waypoint α} (hwaypoint : next.waypoints[index]? = some waypoint)
    (hbefore : previous.waypoints[index]? = some before) (cell : Cell α) (m : Moment α) :
    (next.between previous cell m)[index]? =
      some (waypoint.between before (cell.armAxisCount index) m) := by
  have hpair : (next.waypoints.zip previous.waypoints)[index]? = some (waypoint, before) :=
    List.getElem?_zip_eq_some.mpr ⟨hwaypoint, hbefore⟩
  simp only [between, List.getElem?_map, List.getElem?_zipIdx, Nat.zero_add, hpair, Option.map_some]

theorem exists_between_of_getElem? [Scalar α] {next previous : Step α} {cell : Cell α}
    {m : Moment α} {index : Nat} {target : Target α}
    (h : (next.between previous cell m)[index]? = some target) :
    ∃ waypoint before, next.waypoints[index]? = some waypoint ∧
      previous.waypoints[index]? = some before ∧
      target = waypoint.between before (cell.armAxisCount index) m := by
  rw [between, List.getElem?_map, List.getElem?_zipIdx, Option.map_map] at h
  obtain ⟨⟨waypoint, before⟩, hpair, rfl⟩ := Option.map_eq_some_iff.mp h
  obtain ⟨hwaypoint, hbefore⟩ := List.getElem?_zip_eq_some.mp hpair
  exact ⟨waypoint, before, hwaypoint, hbefore, by simp only [Function.comp_apply, Nat.zero_add]⟩

theorem map_targets_between [Scalar α] {β : Type} {f : Target α → β}
    (hf : ∀ target goal external, f { target with goal, external } = f target)
    {next previous : Step α} (cell : Cell α) (m : Moment α)
    (h : previous.waypoints.length = next.waypoints.length) :
    (next.between previous cell m).map f = next.targets.map f := by
  refine List.ext_getElem (by simp [between, h]) fun group hgroup _ ↦ ?_
  rw [List.length_map] at hgroup
  obtain ⟨waypoint, before, hwaypoint, _, hasked⟩ :=
    exists_between_of_getElem? (List.getElem?_eq_getElem hgroup)
  obtain ⟨goal, external, hbetween⟩ := exists_between_eq waypoint before (cell.armAxisCount group) m
  obtain ⟨_, rfl⟩ := List.getElem?_eq_some_iff.mp hwaypoint
  rw [List.getElem_map, hasked, hbetween, hf]
  simp [Step.targets]

theorem couplings_between [Scalar α] {next previous : Step α} (cell : Cell α) (m : Moment α)
    (h : previous.waypoints.length = next.waypoints.length) :
    (next.between previous cell m).map Target.coupling = next.targets.map Target.coupling :=
  map_targets_between (fun _ _ _ ↦ rfl) cell m h

end Step

variable [Scalar α]

theorem exists_substepsFrom {cell : Cell α} {previous next : Step α} (divisions : Nat)
    (hnext : cell.Placeable next.targets)
    (hprevious : previous.waypoints.length = next.waypoints.length) (count : Nat) :
    ∀ (number : Nat) (last : Step α) (total : α),
      ∃ result, substepsFrom cell previous next divisions count number last total = .ok result := by
  induction count with
  | zero => intro number last total; exact ⟨_, rfl⟩
  | succ count ih =>
    intro number last total
    have hbetween := hnext.congr
      (Step.couplings_between cell (.ofParts number divisions) hprevious)
    obtain ⟨solutions, hsolve⟩ := hbetween.exists_solve (some last.joints)
    simp only [substepsFrom, hsolve, ok_bind]
    split_ifs
    · obtain ⟨result, hresult⟩ := ih (number + 1) _ _
      rw [hresult]
      exact ⟨_, rfl⟩
    · exact ⟨_, rfl⟩

theorem exists_travel {cell : Cell α} (stepSize : α) {previous next : Step α} (start : α)
    (hnext : cell.Placeable next.targets)
    (hprevious : previous.waypoints.length = next.waypoints.length) :
    ∃ motion, travel cell stepSize previous next start = .ok motion := by
  have hend := hnext.congr (Step.couplings_endTargets hprevious)
  obtain ⟨solutions, hsolve⟩ := hend.exists_solve (some previous.joints)
  have hcount : next.waypoints.length = cell.groups.length := by
    rw [← Step.length_targets, hnext.count]
  have hsolutions : solutions.length = next.waypoints.length :=
    (Cell.length_of_solve hsolve).2.trans hcount.symm
  have htargets := Step.targets_withSolutions (some previous) hsolutions
  have hlength := Step.length_waypoints_withSolutions (some previous) hsolutions
  simp only [travel, hsolve, ok_bind]
  split_ifs
  · exact ⟨_, rfl⟩
  · exact ⟨_, rfl⟩
  · obtain ⟨⟨substeps, faults⟩, hsubsteps⟩ := exists_substepsFrom
      ((next.withSolutions solutions (some previous)).motionDivisions previous stepSize)
      (htargets.symm ▸ hnext) (hprevious.trans hlength.symm) _ 1 previous start
    rw [hsubsteps, ok_bind]
    dsimp only
    split_ifs <;> exact ⟨_, rfl⟩

theorem exists_journeyFrom {cell : Cell α} (stepSize : α) {rest : List (Step α)}
    (hrest : ∀ step ∈ rest, cell.Placeable step.targets) :
    ∀ (previous : Step α) (total : α), previous.waypoints.length = cell.groups.length →
      ∃ journey, journeyFrom cell stepSize previous total rest = .ok journey := by
  induction rest with
  | nil => intro previous total _; exact ⟨_, rfl⟩
  | cons next rest ih =>
    intro previous total hprevious
    rw [List.forall_mem_cons] at hrest
    have hcount : next.waypoints.length = cell.groups.length := by
      rw [← Step.length_targets, hrest.1.count]
    obtain ⟨motion, hmotion⟩ := exists_travel stepSize total hrest.1 (hprevious.trans hcount.symm)
    have htask := (Prod.mk.inj ((travelled_of_travel hmotion).task hcount)).2
    have hkept : motion.target.waypoints.length = cell.groups.length := by
      rw [← Step.length_targets, htask, hrest.1.count]
    obtain ⟨onward, honward⟩ := ih hrest.2 motion.target motion.total hkept
    simp only [journeyFrom, hmotion, honward, ok_bind]
    split_ifs <;> exact ⟨_, rfl⟩

/-! ### Placeable programs -/

theorem length_waypoints_keptFirst (first : Step α) :
    (keptFirst first).waypoints.length = first.waypoints.length := by
  unfold keptFirst
  split_ifs <;> rfl

theorem exists_timeline {cell : Cell α} (stepSize : α) {prepared : PreparedProgram α}
    (hplaceable : ∀ step ∈ prepared.first :: prepared.rest, cell.Placeable step.targets) :
    ∃ journey, Program.timeline cell stepSize prepared = .ok journey := by
  rw [List.forall_mem_cons] at hplaceable
  have hcount : (keptFirst prepared.first).waypoints.length = cell.groups.length := by
    rw [length_waypoints_keptFirst, ← Step.length_targets, hplaceable.1.count]
  obtain ⟨onward, honward⟩ := exists_journeyFrom stepSize hplaceable.2 _
    (keptFirst prepared.first).totalTime hcount
  rw [Program.timeline]
  split_ifs
  · unfold keptFirst at honward
    rw [journey]
    split_ifs at honward ⊢
    all_goals
      dsimp only at honward ⊢
      rw [honward]
      exact ⟨_, rfl⟩
  · exact ⟨_, rfl⟩

theorem Prepares.couplings {cell : Cell α} {first : Step α} {rest : List (Step α)}
    {solutions : List (Solution α)} {prepared : PreparedProgram α}
    (h : Prepares cell first rest solutions prepared)
    (hcount : first.waypoints.length = cell.groups.length) :
    (prepared.first :: prepared.rest).map (·.targets.map Target.coupling) =
      (first :: rest).map (·.targets.map Target.coupling) := by
  have hnamed : ∀ (change : Relabelling) (step : Step α),
      (step.mapTargets fun _ ↦ Target.relabel change).targets.map Target.coupling =
        step.targets.map Target.coupling :=
    fun change ↦ Step.map_targets_mapTargets fun _ _ ↦ rfl
  have hreadied := map_targets_readied cell rest (fun _ _ ↦ rfl) Target.coupling_withConfiguration
    (fun _ _ ↦ rfl) ((Cell.length_of_solve h.solve).2.trans hcount.symm)
  rw [h.steps, ← hreadied, nameAttributes, List.map_map]
  exact List.map_congr_left fun step _ ↦ hnamed _ step

/-- A program whose first targets can be solved and whose frames can all be placed compiles if there
is a timeline for its prepared targets. -/
theorem exists_compile_of_timeline (name : String) {cell : Cell α}
    {toolpaths : List (List (Target α))} {stepSize : α} {count : Nat}
    (hgroups : toolpaths.length = cell.groups.length)
    (hcount : toolpathLength toolpaths = .ok count) (hsize : isStepSize stepSize = true)
    (hframes : checkAllFrames cell (stepsOf toolpaths count) = .ok ())
    (hfirst : ∀ step ∈ (stepsOf toolpaths count).head?, cell.Placeable step.targets)
    (htimeline : ∀ {first : Step α} {rest : List (Step α)} {solutions : List (Solution α)}
      {prepared : PreparedProgram α}, stepsOf toolpaths count = first :: rest →
        first.waypoints.length = cell.groups.length →
          Prepares cell first rest solutions prepared →
            ∃ journey, Program.timeline cell stepSize prepared = .ok journey) :
    ∃ program, Program.compile name cell toolpaths stepSize = .ok program := by
  cases hsteps : stepsOf toolpaths count with
  | nil =>
    have hzero : count = 0 := by
      rw [← List.length_range (n := count), ← index_stepsOf toolpaths count, hsteps]
      rfl
    rw [hzero, toolpathLength] at hcount
    split_ifs at hcount with hnone
    split at hcount
    · cases hcount
    · exact absurd (Except.ok.inj hcount) hnone
  | cons first rest =>
    rw [hsteps] at hfirst hframes
    have hplaced := hfirst first rfl
    have hfit : ∀ group target, (fitExternal cell group target).coupling = target.coupling :=
      fun _ _ ↦ rfl
    have hfitted := hplaced.congr (Step.map_targets_mapTargets hfit first)
    obtain ⟨solutions, hsolve⟩ := hfitted.exists_solve none
    obtain ⟨prepared, hprepared⟩ := exists_prepare hframes hsolve
    obtain ⟨_, hprepares⟩ := exists_prepares hprepared
    have hlength : first.waypoints.length = cell.groups.length := by
      rw [← Step.length_targets, hplaced.count]
    obtain ⟨journey, hjourney⟩ := htimeline hsteps hlength hprepares
    exact ⟨_, compile_eq_ok_iff.mpr ⟨count, first, rest, prepared, journey, hgroups, hcount, hsize,
      hsteps, hprepared, hjourney, rfl⟩⟩

theorem exists_compile (name : String) {cell : Cell α} {toolpaths : List (List (Target α))}
    {stepSize : α} {count : Nat} (hgroups : toolpaths.length = cell.groups.length)
    (hcount : toolpathLength toolpaths = .ok count) (hsize : isStepSize stepSize = true)
    (hplaceable : ∀ step ∈ stepsOf toolpaths count, cell.Placeable step.targets) :
    ∃ program, Program.compile name cell toolpaths stepSize = .ok program := by
  have hframes : checkAllFrames cell (stepsOf toolpaths count) = .ok () :=
    forM_eq_ok_iff.mpr fun step hstep ↦ (hplaceable step hstep).frames
  refine exists_compile_of_timeline name hgroups hcount hsize hframes
    (fun step hstep ↦ hplaceable step (List.mem_of_head? hstep)) ?_
  intro first rest solutions prepared hsteps hlength hprepares
  refine exists_timeline stepSize fun step hstep ↦ ?_
  have hmem := List.mem_map_of_mem (f := (·.targets.map Target.coupling)) hstep
  rw [hprepares.couplings hlength] at hmem
  obtain ⟨given, hgiven, hcouplings⟩ := List.mem_map.mp hmem
  exact (hplaceable given (hsteps ▸ hgiven)).congr hcouplings.symm

/-- Targets in uncoupled frames compile, whatever they ask for. -/
theorem exists_compile_uncoupled (name : String) {cell : Cell α}
    {toolpaths : List (List (Target α))} {stepSize : α} {count : Nat}
    (hgroups : toolpaths.length = cell.groups.length)
    (hcount : toolpathLength toolpaths = .ok count) (hsize : isStepSize stepSize = true)
    (huncoupled : ∀ toolpath ∈ toolpaths, ∀ target ∈ toolpath, target.coupling = (none, none)) :
    ∃ program, Program.compile name cell toolpaths stepSize = .ok program := by
  refine exists_compile name hgroups hcount hsize fun step hstep ↦ ?_
  have hlength := length_waypoints_of_mem_stepsOf (length_of_toolpathLength hcount) step hstep
  rw [← Step.length_targets, hgroups] at hlength
  refine Cell.placeable_of_uncoupled hlength fun target htarget ↦ ?_
  obtain ⟨index, _, rfl⟩ := List.mem_map.mp hstep
  rw [Step.targets_ofTargets] at htarget
  obtain ⟨toolpath, htoolpath, hentry⟩ := List.mem_filterMap.mp htarget
  exact huncoupled toolpath htoolpath target (List.mem_of_getElem? hentry)

/-- One target in an uncoupled frame compiles on a single arm. -/
theorem exists_compile_single (name : String) (arm : Arm α) {target : Target α}
    (huncoupled : target.coupling = (none, none)) {stepSize : α}
    (hsize : isStepSize stepSize = true) :
    ∃ program, Program.compile name (.single arm) [[target]] stepSize = .ok program := by
  refine exists_compile name rfl rfl hsize fun step hstep ↦ ?_
  obtain rfl := List.mem_singleton.mp hstep
  refine Cell.placeable_of_uncoupled rfl fun asked hasked ↦ ?_
  obtain rfl := List.mem_singleton.mp hasked
  exact huncoupled

end Toolpath
