import Toolpath.Program.Basic
import Toolpath.Proofs.Steps

/-!
What a compiled program was made of. `compile_eq_ok_iff` takes a compilation apart into its stages,
`readied` are the steps between the preparation of the targets and the naming of their attributes,
and `Travelled` lists what one motion can come to. From these, the kept targets are the first of the
prepared steps (`timeline_tasks_prefix`), each at the place of its number
(`Stages.index_of_getElem?`).
-/

set_option autoImplicit false
set_option relaxedAutoImplicit false

namespace Toolpath

variable {α : Type} [Scalar α]

/-! ### The stages of a compilation -/

theorem compile_eq_ok_iff {name : String} {cell : Cell α} {toolpaths : List (List (Target α))}
    {stepSize : α} {program : Program α} :
    Program.compile name cell toolpaths stepSize = .ok program ↔
      ∃ count first rest prepared journey, toolpaths.length = cell.groups.length ∧
        toolpathLength toolpaths = .ok count ∧ isStepSize stepSize = true ∧
        stepsOf toolpaths count = first :: rest ∧ prepare cell first rest = .ok prepared ∧
        Program.timeline cell stepSize prepared = .ok journey ∧
        program =
          { name, cell, stepSize
            targets := journey.targets
            keyframes := journey.keyframes
            attributes := prepared.attributes
            warnings := prepared.warnings ++ journey.warnings
            faults := journey.faults
            duration := journey.total } := by
  constructor
  · intro h
    unfold Program.compile at h
    by_cases hgroups : toolpaths.length = cell.groups.length
    · simp only [hgroups, ne_eq, not_true_eq_false, if_false] at h
      obtain ⟨count, hcount, h⟩ := bind_eq_ok_iff.mp h
      cases hsize : isStepSize stepSize with
      | false =>
        rw [hsize] at h
        cases h
      | true =>
        simp only [hsize, Bool.not_true, Bool.false_eq_true, if_false] at h
        cases hsteps : stepsOf toolpaths count with
        | nil =>
          rw [hsteps] at h
          cases h
        | cons first rest =>
          simp only [hsteps] at h
          obtain ⟨prepared, hprepared, h⟩ := bind_eq_ok_iff.mp h
          obtain ⟨journey, hjourney, h⟩ := bind_eq_ok_iff.mp h
          exact ⟨count, first, rest, prepared, journey, hgroups, hcount, rfl, hsteps, hprepared,
            hjourney, (Except.ok.inj h).symm⟩
    · simp only [hgroups, ne_eq, not_false_eq_true, if_true] at h
      cases h
  · rintro ⟨count, first, rest, prepared, journey, hgroups, hcount, hsize, hsteps, hprepared,
      hjourney, rfl⟩
    simp only [Program.compile, hgroups, hcount, hsize, ok_bind, hsteps, hprepared, hjourney,
      ne_eq, not_true_eq_false, Bool.not_true, Bool.false_eq_true, if_false]
    rfl

/-! ### Prepared targets -/

/-- The first step after every Cartesian target of it gave way to the position that it was solved
to. -/
def anchored (cell : Cell α) (first : Step α) (solutions : List (Solution α)) : Step α :=
  (first.withTargets ((first.targets.zip solutions).zipIdx.map fun ((target, solution), group) ↦
    anchorTarget cell group target solution)).withSolutions solutions none

/-- The targets of a step, each Cartesian one as the axis values that it was solved to. -/
def Cell.anchoredTargets (cell : Cell α) (targets : List (Target α))
    (solutions : List (Solution α)) : List (Target α) :=
  (targets.zip solutions).zipIdx.map fun entry ↦ anchorTarget cell entry.2 entry.1.1 entry.1.2

/-- The prepared steps before their attributes are named. -/
def readied (cell : Cell α) (first : Step α) (rest : List (Step α))
    (solutions : List (Solution α)) : List (Step α) :=
  (clearConfigurations (anchored cell (first.mapTargets (fitExternal cell)) solutions ::
    rest.map (·.mapTargets (fitExternal cell)))).1

/-- How a step is prepared from the solutions of its first targets. -/
structure Prepares (cell : Cell α) (first : Step α) (rest : List (Step α))
    (solutions : List (Solution α)) (prepared : PreparedProgram α) : Prop where
  frames : checkAllFrames cell (first :: rest) = .ok ()
  solve : cell.solve (first.mapTargets (fitExternal cell)).targets none = .ok solutions
  steps : prepared.first :: prepared.rest = (nameAttributes (readied cell first rest solutions)).1
  attributes : prepared.attributes = (nameAttributes (readied cell first rest solutions)).2.1

theorem exists_prepares {cell : Cell α} {first : Step α} {rest : List (Step α)}
    {prepared : PreparedProgram α} (h : prepare cell first rest = .ok prepared) :
    ∃ solutions, Prepares cell first rest solutions prepared := by
  unfold prepare at h
  cases hframes : checkAllFrames cell (first :: rest) with
  | error error =>
    simp only [hframes] at h
    cases h
  | ok =>
    simp only [hframes] at h
    obtain ⟨⟨start, warnings⟩, hanchor, h⟩ := bind_eq_ok_iff.mp h
    obtain rfl := Except.ok.inj h
    unfold anchor at hanchor
    obtain ⟨solutions, hsolve, hstart⟩ := bind_eq_ok_iff.mp hanchor
    obtain ⟨rfl, _⟩ := Prod.mk.inj (Except.ok.inj hstart)
    exact ⟨solutions, hframes, hsolve, rfl, rfl⟩

theorem exists_prepare {cell : Cell α} {first : Step α} {rest : List (Step α)}
    {solutions : List (Solution α)} (hframes : checkAllFrames cell (first :: rest) = .ok ())
    (hsolve : cell.solve (first.mapTargets (fitExternal cell)).targets none = .ok solutions) :
    ∃ prepared, prepare cell first rest = .ok prepared := by
  have hhead : (fitExternals cell (first :: rest)).1.headD first =
      first.mapTargets (fitExternal cell) := rfl
  simp only [prepare, hframes, hhead, anchor, hsolve, ok_bind]
  exact ⟨_, rfl⟩

section Anchored

variable {cell : Cell α} {first : Step α} {solutions : List (Solution α)}

omit [Scalar α] in
theorem anchored_eq (cell : Cell α) (first : Step α) (solutions : List (Solution α)) :
    anchored cell first solutions =
      (first.withTargets (cell.anchoredTargets first.targets solutions)).withSolutions solutions
        none :=
  rfl

omit [Scalar α] in
theorem Cell.length_anchoredTargets (cell : Cell α)
    (h : solutions.length = first.waypoints.length) :
    (cell.anchoredTargets first.targets solutions).length = first.waypoints.length := by
  simp [anchoredTargets, h]

omit [Scalar α] in
theorem length_waypoints_anchored (h : solutions.length = first.waypoints.length) :
    (anchored cell first solutions).waypoints.length = first.waypoints.length := by
  have hwaypoints := Step.length_waypoints_withTargets (cell.length_anchoredTargets h)
  rw [anchored_eq, Step.length_waypoints_withSolutions none (h.trans hwaypoints.symm), hwaypoints]

omit [Scalar α] in
theorem targets_anchored (h : solutions.length = first.waypoints.length) :
    (anchored cell first solutions).targets = cell.anchoredTargets first.targets solutions := by
  have htargets := cell.length_anchoredTargets h
  have hwaypoints := Step.length_waypoints_withTargets htargets
  rw [anchored_eq, Step.targets_withSolutions none (h.trans hwaypoints.symm),
    Step.targets_withTargets htargets]

omit [Scalar α] in
theorem solutions_anchored (h : solutions.length = first.waypoints.length) :
    (anchored cell first solutions).solutions = solutions := by
  have hwaypoints := Step.length_waypoints_withTargets (cell.length_anchoredTargets h)
  rw [anchored_eq, Step.solutions_withSolutions none (h.trans hwaypoints.symm)]

omit [Scalar α] in
theorem Cell.exists_of_getElem?_anchoredTargets {targets : List (Target α)} {index : Nat}
    {target : Target α} (h : (cell.anchoredTargets targets solutions)[index]? = some target) :
    ∃ given solution, targets[index]? = some given ∧ solutions[index]? = some solution ∧
      target = anchorTarget cell index given solution := by
  rw [anchoredTargets, List.getElem?_map, List.getElem?_zipIdx, Option.map_map,
    Option.map_eq_some_iff] at h
  obtain ⟨⟨given, solution⟩, hentry, rfl⟩ := h
  obtain ⟨hgiven, hsolution⟩ := List.getElem?_zip_eq_some.mp hentry
  exact ⟨given, solution, hgiven, hsolution,
    by simp only [Function.comp_apply, Nat.zero_add]⟩

section Kept

variable {β : Type} {f : Target α → β}

omit [Scalar α] in
theorem map_targets_cleared
    (hconfiguration : ∀ target configuration, f (target.withConfiguration configuration) = f target)
    (step : Step α) : (step.mapTargets fun _ target ↦
      if hasIdleConfiguration target then target.withConfiguration none else target).targets.map f =
        step.targets.map f := by
  refine Step.map_targets_mapTargets (fun _ target ↦ ?_) step
  split_ifs
  · exact hconfiguration target none
  · rfl

theorem map_targets_fitted (cell : Cell α)
    (hexternal : ∀ target external, f (target.withExternal external) = f target) (step : Step α) :
    (step.mapTargets (fitExternal cell)).targets.map f = step.targets.map f :=
  Step.map_targets_mapTargets (fun _ target ↦ hexternal target _) step

end Kept

/-- What the preparation of the targets keeps: it changes external values, forced configurations
and, at the start, the goal. -/
theorem map_targets_readied (cell : Cell α) (rest : List (Step α)) {β : Type} {f : Target α → β}
    (hexternal : ∀ target external, f (target.withExternal external) = f target)
    (hconfiguration : ∀ target configuration, f (target.withConfiguration configuration) = f target)
    (hjoints : ∀ target values, f (target.toJoints values) = f target)
    (h : solutions.length = first.waypoints.length) :
    (readied cell first rest solutions).map (fun step ↦ step.targets.map f) =
      (first :: rest).map fun step ↦ step.targets.map f := by
  have hfirst : solutions.length = (first.mapTargets (fitExternal cell)).waypoints.length := by
    rw [Step.length_waypoints_mapTargets, h]
  have hanchored : (anchored cell (first.mapTargets (fitExternal cell)) solutions).targets.map f =
      first.targets.map f := by
    rw [targets_anchored hfirst, ← map_targets_fitted cell hexternal first, Cell.anchoredTargets,
      List.map_map]
    refine List.ext_getElem (by simp [h]) fun group _ _ ↦ ?_
    simp only [List.getElem_map, List.getElem_zipIdx, List.getElem_zip, Function.comp_apply,
      anchorTarget]
    split_ifs
    · rw [hexternal, hjoints]
    · rfl
  simp only [readied, clearConfigurations, List.map_cons, List.map_map, Function.comp_def,
    map_targets_cleared hconfiguration, map_targets_fitted cell hexternal, hanchored]

/-- What the preparation keeps of the targets after the first ones. -/
theorem Prepares.map_targets_rest {rest : List (Step α)} {prepared : PreparedProgram α}
    (h : Prepares cell first rest solutions prepared) {β : Type}
    {f : Target α → β} (hexternal : ∀ target external, f (target.withExternal external) = f target)
    (hconfiguration : ∀ target configuration, f (target.withConfiguration configuration) = f target)
    (hrelabel : ∀ (target : Target α) change, f (target.relabel change) = f target) :
    prepared.rest.map (·.targets.map f) = rest.map (·.targets.map f) := by
  have hnamed : ∀ (change : Relabelling) (step : Step α),
      (step.mapTargets fun _ ↦ Target.relabel change).targets.map f = step.targets.map f :=
    fun change ↦ Step.map_targets_mapTargets fun _ target ↦ hrelabel target change
  have hsteps := h.steps
  simp only [nameAttributes, readied, clearConfigurations, List.map_cons, List.map_map,
    List.cons.injEq] at hsteps
  rw [hsteps.2, List.map_map]
  exact List.map_congr_left fun step _ ↦
    (hnamed _ _).trans
      ((map_targets_cleared hconfiguration _).trans (map_targets_fitted cell hexternal step))

/-- What the preparation keeps of the first targets. -/
theorem Prepares.map_targets_first {rest : List (Step α)} {prepared : PreparedProgram α}
    (h : Prepares cell first rest solutions prepared) {β : Type}
    {f : Target α → β} (hexternal : ∀ target external, f (target.withExternal external) = f target)
    (hconfiguration : ∀ target configuration, f (target.withConfiguration configuration) = f target)
    (hjoints : ∀ target values, f (target.toJoints values) = f target)
    (hrelabel : ∀ (target : Target α) change, f (target.relabel change) = f target)
    (hcount : solutions.length = first.waypoints.length) :
    prepared.first.targets.map f = first.targets.map f := by
  have hreadied := map_targets_readied cell rest hexternal hconfiguration hjoints hcount
  have hsteps := congrArg (List.map fun step : Step α ↦ step.targets.map f) h.steps
  simp only [nameAttributes, List.map_map, Function.comp_def,
    Step.map_targets_mapTargets fun _ target ↦ hrelabel target _] at hsteps
  exact (List.cons.inj (hsteps.trans hreadied)).1

end Anchored

/-! ### Motions -/

/-- The target of a motion with the solutions of its end. -/
def arrivedAt (previous next : Step α) (solutions : List (Solution α)) : Step α :=
  next.withSolutions solutions (some previous)

/-- What a motion can come to: it has no configuration to keep, its end has faults, it runs to its
end, or it stops at a substep with faults. -/
inductive Travelled (cell : Cell α) (stepSize : α) (previous next : Step α) (start : α) :
    Travel α → Prop where
  | undefined (hundefined : next.undefinedStarts previous ≠ []) :
    Travelled cell stepSize previous next start
      ⟨next, [], [], next.undefinedStarts previous, start⟩
  | unreached {solutions : List (Solution α)}
    (hsolve : cell.solve (next.endTargets previous) (some previous.joints) = .ok solutions)
    (hfaults : ProgramFault.ofStep (arrivedAt previous next solutions) ≠ []) :
    Travelled cell stepSize previous next start
      ⟨arrivedAt previous next solutions, [], [],
        ProgramFault.ofStep (arrivedAt previous next solutions), start⟩
  | completed {solutions : List (Solution α)} {divisions : Nat} {substeps : List (Substep α)}
    (hsolve : cell.solve (next.endTargets previous) (some previous.joints) = .ok solutions)
    (hreached : ProgramFault.ofStep (arrivedAt previous next solutions) = [])
    (hdivisions : divisions = (arrivedAt previous next solutions).motionDivisions previous stepSize)
    (hsubsteps : substepsFrom cell previous (arrivedAt previous next solutions) divisions divisions
      1 previous start = .ok (substeps, [])) :
    Travelled cell stepSize previous next start
      (completeTravel cell (arrivedAt previous next solutions) divisions start
        ((arrivedAt previous next solutions).endWarnings previous) substeps)
  | stopped {solutions : List (Solution α)} {divisions : Nat} {substeps : List (Substep α)}
    {faults : List ProgramFault}
    (hsolve : cell.solve (next.endTargets previous) (some previous.joints) = .ok solutions)
    (hreached : ProgramFault.ofStep (arrivedAt previous next solutions) = [])
    (hdivisions : divisions = (arrivedAt previous next solutions).motionDivisions previous stepSize)
    (hsubsteps : substepsFrom cell previous (arrivedAt previous next solutions) divisions divisions
      1 previous start = .ok (substeps, faults)) (hfaults : faults ≠ []) :
    Travelled cell stepSize previous next start
      { target := arrivedAt previous next solutions
        keyframes := stampDeltas start (turningPoints cell.hasRedundantArm substeps)
        warnings := (arrivedAt previous next solutions).endWarnings previous
        faults
        total := (substeps.getLast?.map fun s ↦ s.step.totalTime).getD start }

theorem travelled_of_travel {cell : Cell α} {stepSize : α} {previous next : Step α} {start : α}
    {motion : Travel α} (h : travel cell stepSize previous next start = .ok motion) :
    Travelled cell stepSize previous next start motion := by
  unfold travel at h
  by_cases hundefined : next.undefinedStarts previous = []
  · simp only [hundefined, List.isEmpty_nil, Bool.not_true, Bool.false_eq_true, if_false] at h
    obtain ⟨solutions, hsolve, h⟩ := bind_eq_ok_iff.mp h
    by_cases hreached : ProgramFault.ofStep (arrivedAt previous next solutions) = []
    · unfold arrivedAt at hreached
      simp only [hreached, List.isEmpty_nil, Bool.not_true, Bool.false_eq_true, if_false] at h
      obtain ⟨⟨substeps, faults⟩, hsubsteps, h⟩ := bind_eq_ok_iff.mp h
      by_cases hfaults : faults = []
      · subst hfaults
        obtain rfl := Except.ok.inj h
        exact .completed hsolve hreached rfl hsubsteps
      · simp only [List.isEmpty_iff, hfaults, if_false] at h
        obtain rfl := Except.ok.inj h
        exact .stopped hsolve hreached rfl hsubsteps hfaults
    · have hfaulty : (ProgramFault.ofStep
          (next.withSolutions solutions (some previous))).isEmpty = false := by
        simpa [arrivedAt] using hreached
      simp only [hfaulty, Bool.not_false, if_true] at h
      obtain rfl := Except.ok.inj h
      exact .unreached hsolve hreached
  · have hfaulty : (next.undefinedStarts previous).isEmpty = false := by simpa using hundefined
    simp only [hfaulty, Bool.not_false, if_true] at h
    obtain rfl := Except.ok.inj h
    exact .undefined hundefined

/-- A journey goes on after a motion without faults and ends with a motion that has any. -/
theorem journeyFrom_cons_cases {cell : Cell α} {stepSize : α} {previous next : Step α}
    {rest : List (Step α)} {total : α} {journey : Journey α}
    (h : journeyFrom cell stepSize previous total (next :: rest) = .ok journey) :
    ∃ motion, Travelled cell stepSize previous next total motion ∧
      ((motion.faults = [] ∧ ∃ onward,
        journeyFrom cell stepSize motion.target motion.total rest = .ok onward ∧
        journey = { onward with
          targets := motion.target :: onward.targets
          keyframes := motion.keyframes ++ onward.keyframes
          warnings := motion.warnings ++ onward.warnings }) ∨
      (motion.faults ≠ [] ∧ journey =
        ⟨[motion.target], motion.keyframes, motion.warnings, motion.faults, motion.total⟩)) := by
  unfold journeyFrom at h
  obtain ⟨motion, hmotion, h⟩ := bind_eq_ok_iff.mp h
  refine ⟨motion, travelled_of_travel hmotion, ?_⟩
  by_cases hfaults : motion.faults = []
  · simp only [hfaults, List.isEmpty_nil, if_true] at h
    obtain ⟨onward, honward, h⟩ := bind_eq_ok_iff.mp h
    exact Or.inl ⟨hfaults, onward, honward, (Except.ok.inj h).symm⟩
  · simp only [List.isEmpty_iff, hfaults, if_false] at h
    exact Or.inr ⟨hfaults, (Except.ok.inj h).symm⟩

/-! ### The tasks of the kept targets -/

theorem task_completeTravel (cell : Cell α) (arrived : Step α) (divisions : Nat) (start : α)
    (warnings : List (Warning α)) (substeps : List (Substep α)) :
    (completeTravel cell arrived divisions start warnings substeps).target.task = arrived.task := by
  refine congrArg₂ Prod.mk rfl (List.ext_getElem (by simp [completeTravel]) fun group _ _ ↦ ?_)
  simp [Step.targets, completeTravel]

theorem solutions_completeTravel (cell : Cell α) (arrived : Step α) (divisions : Nat) (start : α)
    (warnings : List (Warning α)) (substeps : List (Substep α)) :
    (completeTravel cell arrived divisions start warnings substeps).target.solutions =
      arrived.solutions := by
  refine List.ext_getElem (by simp [completeTravel]) fun group _ _ ↦ ?_
  simp [Step.solutions, completeTravel]

theorem Travelled.task {cell : Cell α} {stepSize : α} {previous next : Step α} {start : α}
    {motion : Travel α} (h : Travelled cell stepSize previous next start motion)
    (hcount : next.waypoints.length = cell.groups.length) : motion.target.task = next.task := by
  have hkeeps : ∀ {solutions : List (Solution α)},
      cell.solve (next.endTargets previous) (some previous.joints) = .ok solutions →
        (arrivedAt previous next solutions).task = next.task := fun hsolve ↦
    Step.task_withSolutions _ ((Cell.length_of_solve hsolve).2.trans hcount.symm)
  cases h with
  | undefined _ => rfl
  | unreached hsolve _ => exact hkeeps hsolve
  | stopped hsolve _ _ _ _ => exact hkeeps hsolve
  | completed hsolve _ _ _ => exact (task_completeTravel _ _ _ _ _ _).trans (hkeeps hsolve)

theorem journeyFrom_tasks_prefix {cell : Cell α} {stepSize : α} {rest : List (Step α)}
    (hcount : ∀ step ∈ rest, step.waypoints.length = cell.groups.length) :
    ∀ {previous : Step α} {total : α} {journey : Journey α},
      journeyFrom cell stepSize previous total rest = .ok journey →
        journey.targets.map Step.task <+: rest.map Step.task := by
  induction rest with
  | nil =>
    intro previous total journey h
    obtain rfl := Except.ok.inj h
    exact List.prefix_rfl
  | cons next rest ih =>
    intro previous total journey h
    rw [List.forall_mem_cons] at hcount
    obtain ⟨motion, hmotion, ⟨_, onward, honward, rfl⟩ | ⟨_, rfl⟩⟩ := journeyFrom_cons_cases h
    · rw [List.map_cons, List.map_cons, hmotion.task hcount.1]
      exact List.cons_prefix_cons.mpr ⟨rfl, ih hcount.2 honward⟩
    · rw [List.map_cons, List.map_cons, hmotion.task hcount.1]
      exact List.cons_prefix_cons.mpr ⟨rfl, List.nil_prefix⟩

/-- The first target as a program without faults keeps it: it is over when its dwell is. -/
def keptFirst (first : Step α) : Step α :=
  if 0 < first.dwell then { first with totalTime := 0 + first.dwell, deltaTime := first.dwell }
  else { first with totalTime := 0 }

/-- The keyframes of the first target: its arrival, and the end of its dwell. -/
def startKeyframes (first : Step α) : List (Step α) :=
  if 0 < first.dwell then [{ first with totalTime := 0 }, keptFirst first]
  else [{ first with totalTime := 0 }]

theorem task_keptFirst (first : Step α) : (keptFirst first).task = first.task := by
  unfold keptFirst
  split_ifs <;> rfl

/-- A timeline is the first target with its faults, or the journey from it. -/
theorem timeline_cases {cell : Cell α} {stepSize : α} {prepared : PreparedProgram α}
    {journey : Journey α} (h : Program.timeline cell stepSize prepared = .ok journey) :
    (ProgramFault.ofStep prepared.first ≠ [] ∧ journey =
      ⟨[prepared.first], [prepared.first], [], ProgramFault.ofStep prepared.first, 0⟩) ∨
    (ProgramFault.ofStep prepared.first = [] ∧ ∃ onward,
      journeyFrom cell stepSize (keptFirst prepared.first) (keptFirst prepared.first).totalTime
        prepared.rest = .ok onward ∧
      journey = { onward with
        targets := keptFirst prepared.first :: onward.targets
        keyframes := startKeyframes prepared.first ++ onward.keyframes }) := by
  unfold Program.timeline at h
  by_cases hfaults : ProgramFault.ofStep prepared.first = []
  · right
    simp only [hfaults, List.isEmpty_nil, if_true, Toolpath.journey] at h
    refine ⟨hfaults, ?_⟩
    rw [keptFirst, startKeyframes, keptFirst]
    split_ifs at h ⊢
    all_goals
      obtain ⟨onward, honward, h⟩ := bind_eq_ok_iff.mp h
      exact ⟨onward, honward, (Except.ok.inj h).symm⟩
  · left
    simp only [List.isEmpty_iff, hfaults, if_false] at h
    exact ⟨hfaults, (Except.ok.inj h).symm⟩

theorem timeline_tasks_prefix {cell : Cell α} {stepSize : α} {prepared : PreparedProgram α}
    {journey : Journey α} (hcount : ∀ step ∈ prepared.rest, step.waypoints.length =
      cell.groups.length) (h : Program.timeline cell stepSize prepared = .ok journey) :
    journey.targets.map Step.task <+: (prepared.first :: prepared.rest).map Step.task := by
  rw [List.map_cons]
  rcases timeline_cases h with ⟨_, rfl⟩ | ⟨_, onward, honward, rfl⟩
  · exact List.cons_prefix_cons.mpr ⟨rfl, List.nil_prefix⟩
  · rw [List.map_cons, task_keptFirst]
    exact List.cons_prefix_cons.mpr ⟨rfl, journeyFrom_tasks_prefix hcount honward⟩

/-! ### The shape of a program -/

omit [Scalar α] in
theorem length_of_toolpathLength {toolpaths : List (List (Target α))} {count : Nat}
    (h : toolpathLength toolpaths = .ok count) :
    ∀ toolpath ∈ toolpaths, toolpath.length = count := by
  rw [toolpathLength] at h
  split_ifs at h
  split at h
  · cases h
  · next hall =>
    obtain rfl := Except.ok.inj h
    intro toolpath hmem
    obtain ⟨group, hgroup, rfl⟩ := List.getElem_of_mem hmem
    have hentry := List.find?_eq_none.mp hall (toolpaths[group], group)
      (List.mem_zipIdx_iff_getElem?.mpr (List.getElem?_eq_getElem hgroup))
    simpa using hentry

theorem index_stepsOf (toolpaths : List (List (Target α))) (count : Nat) :
    (stepsOf toolpaths count).map Step.index = List.range count := by
  rw [stepsOf, List.map_map]
  exact List.map_id _

theorem length_waypoints_of_mem_stepsOf {toolpaths : List (List (Target α))} {count : Nat}
    (hlength : ∀ toolpath ∈ toolpaths, toolpath.length = count) :
    ∀ step ∈ stepsOf toolpaths count, step.waypoints.length = toolpaths.length := by
  intro step hstep
  obtain ⟨index, hindex, rfl⟩ := List.mem_map.mp hstep
  rw [← Step.length_targets, Step.targets_ofTargets, List.filterMap_length_eq_length]
  intro toolpath htoolpath
  have hlt : index < toolpath.length := by
    rw [hlength toolpath htoolpath]
    exact List.mem_range.mp hindex
  rw [List.getElem?_eq_getElem hlt, Option.isSome_some]

section Prepared

variable {cell : Cell α} {first : Step α} {rest : List (Step α)} {solutions : List (Solution α)}
  {prepared : PreparedProgram α}

/-- The preparation changes nothing of a step but its waypoints. -/
theorem Prepares.map_steps (h : Prepares cell first rest solutions prepared) {β : Type}
    {f : Step α → β} (hf : ∀ (step : Step α) (waypoints : List (Waypoint α)),
      f { step with waypoints } = f step) :
    (prepared.first :: prepared.rest).map f = (first :: rest).map f := by
  rw [h.steps]
  simp [nameAttributes, readied, clearConfigurations, Function.comp_def, Step.mapTargets, anchored,
    Step.withSolutions, Step.withTargets, hf]

theorem Prepares.length_waypoints (h : Prepares cell first rest solutions prepared)
    (hcount : ∀ step ∈ first :: rest, step.waypoints.length = cell.groups.length) :
    ∀ step ∈ prepared.first :: prepared.rest, step.waypoints.length = cell.groups.length := by
  have hsolutions := (Cell.length_of_solve h.solve).2
  rw [List.forall_mem_cons] at hcount
  have hfirst : solutions.length = (first.mapTargets (fitExternal cell)).waypoints.length := by
    rw [Step.length_waypoints_mapTargets, hcount.1, hsolutions]
  rw [h.steps]
  intro step hstep
  simp only [nameAttributes, readied, clearConfigurations, List.map_cons, List.map_map,
    List.mem_cons, List.mem_map] at hstep
  rcases hstep with rfl | ⟨given, hgiven, rfl⟩
  · rw [Step.length_waypoints_mapTargets, Step.length_waypoints_mapTargets,
      length_waypoints_anchored hfirst, ← hfirst, hsolutions]
  · simpa using hcount.2 given hgiven

theorem Prepares.solutions_first (h : Prepares cell first rest solutions prepared)
    (hcount : first.waypoints.length = cell.groups.length) :
    prepared.first.solutions = solutions := by
  have hsolutions := (Cell.length_of_solve h.solve).2
  have hfirst : solutions.length = (first.mapTargets (fitExternal cell)).waypoints.length := by
    rw [Step.length_waypoints_mapTargets, hcount, hsolutions]
  have hhead := congrArg (List.map Step.solutions) h.steps
  simp only [nameAttributes, readied, clearConfigurations, List.map_cons, List.cons.injEq] at hhead
  rw [hhead.1, Step.solutions_mapTargets, Step.solutions_mapTargets, solutions_anchored hfirst]

end Prepared

/-- The stages of a compilation, from the steps of the author to the timeline. -/
structure Stages (cell : Cell α) (toolpaths : List (List (Target α))) (stepSize : α) (count : Nat)
    (first : Step α) (rest : List (Step α)) (solutions : List (Solution α))
    (prepared : PreparedProgram α) (journey : Journey α) : Prop where
  groups : toolpaths.length = cell.groups.length
  length : toolpathLength toolpaths = .ok count
  steps : stepsOf toolpaths count = first :: rest
  prepares : Prepares cell first rest solutions prepared
  timeline : Program.timeline cell stepSize prepared = .ok journey

theorem exists_stages_eq {name : String} {cell : Cell α} {toolpaths : List (List (Target α))}
    {stepSize : α} {program : Program α}
    (h : Program.compile name cell toolpaths stepSize = .ok program) :
    ∃ count first rest solutions prepared journey,
      Stages cell toolpaths stepSize count first rest solutions prepared journey ∧
      program =
        { name, cell, stepSize
          targets := journey.targets
          keyframes := journey.keyframes
          attributes := prepared.attributes
          warnings := prepared.warnings ++ journey.warnings
          faults := journey.faults
          duration := journey.total } := by
  obtain ⟨count, first, rest, prepared, journey, hgroups, hcount, _, hsteps, hprepared, hjourney,
    hprogram⟩ := compile_eq_ok_iff.mp h
  obtain ⟨solutions, hprepares⟩ := exists_prepares hprepared
  exact ⟨count, first, rest, solutions, prepared, journey,
    ⟨hgroups, hcount, hsteps, hprepares, hjourney⟩, hprogram⟩

theorem exists_stages {name : String} {cell : Cell α} {toolpaths : List (List (Target α))}
    {stepSize : α} {program : Program α}
    (h : Program.compile name cell toolpaths stepSize = .ok program) :
    ∃ count first rest solutions prepared journey,
      Stages cell toolpaths stepSize count first rest solutions prepared journey ∧
      program.cell = cell ∧ program.targets = journey.targets ∧
      program.keyframes = journey.keyframes ∧ program.faults = journey.faults ∧
      program.attributes = prepared.attributes := by
  obtain ⟨count, first, rest, solutions, prepared, journey, hstages, rfl⟩ := exists_stages_eq h
  exact ⟨count, first, rest, solutions, prepared, journey, hstages, rfl, rfl, rfl, rfl, rfl⟩

namespace Stages

variable {cell : Cell α} {toolpaths : List (List (Target α))} {stepSize : α} {count : Nat}
  {first : Step α} {rest : List (Step α)} {solutions : List (Solution α)}
  {prepared : PreparedProgram α} {journey : Journey α}
  (h : Stages cell toolpaths stepSize count first rest solutions prepared journey)

include h

theorem length_waypoints :
    ∀ step ∈ first :: rest, step.waypoints.length = cell.groups.length := by
  rw [← h.steps, ← h.groups]
  exact length_waypoints_of_mem_stepsOf (length_of_toolpathLength h.length)

theorem length_waypoints_prepared :
    ∀ step ∈ prepared.first :: prepared.rest, step.waypoints.length = cell.groups.length :=
  h.prepares.length_waypoints h.length_waypoints

/-- The prepared steps are numbered from zero. -/
theorem index_prepared : (prepared.first :: prepared.rest).map Step.index = List.range count := by
  rw [h.prepares.map_steps fun _ _ ↦ rfl, ← h.steps, index_stepsOf]

/-- No time has passed before the first step. -/
theorem unstamped_first : prepared.first.totalTime = 0 ∧ prepared.first.deltaTime = 0 ∧
    prepared.first.minTime = 0 := by
  have hstamps := h.prepares.map_steps (f := fun step ↦
    (step.totalTime, step.deltaTime, step.minTime)) fun _ _ ↦ rfl
  rw [List.map_cons, List.map_cons, List.cons.injEq] at hstamps
  have hfirst : first ∈ stepsOf toolpaths count := h.steps ▸ List.mem_cons_self
  obtain ⟨index, _, hindex⟩ := List.mem_map.mp hfirst
  subst hindex
  simpa [Step.ofTargets] using hstamps.1

theorem tasks_prefix :
    journey.targets.map Step.task <+: (prepared.first :: prepared.rest).map Step.task :=
  timeline_tasks_prefix (List.forall_mem_cons.mp h.length_waypoints_prepared).2 h.timeline

/-- A kept target stands at the place of its number. -/
theorem index_of_getElem? {place : Nat} {kept : Step α} (hkept : journey.targets[place]? = some kept) :
    kept.index = place := by
  obtain ⟨tail, htail⟩ := h.tasks_prefix
  have hindexes := congrArg (List.map Prod.fst) htail
  rw [List.map_append, List.map_map, List.map_map] at hindexes
  have hindices : journey.targets.map Step.index ++ tail.map Prod.fst = List.range count :=
    hindexes.trans h.index_prepared
  have hentry : (journey.targets.map Step.index ++ tail.map Prod.fst)[place]? = some kept.index := by
    obtain ⟨hlt, _⟩ := List.getElem?_eq_some_iff.mp hkept
    rw [List.getElem?_append_left (by simpa using hlt), List.getElem?_map, hkept, Option.map_some]
  rw [hindices] at hentry
  obtain ⟨hlt, hvalue⟩ := List.getElem?_eq_some_iff.mp hentry
  rw [← hvalue, List.getElem_range]

end Stages

end Toolpath
