import Toolpath.Proofs.Causality
import Toolpath.Proofs.Motions
import Toolpath.Proofs.Preparation

/-!
When a program is refused. A program is `Malformed` where its toolpaths do not fit the cell or each
other, its step size is no length, or a frame cannot be placed; then it is refused before any target
is solved. A loop of couplings is found later, when the targets that run in it are solved. It
therefore refuses the program only if the motions get there: if the program of the targets before
has no faults, and no straight motion is left without a configuration to keep
(`Program.LeadsTo`). `compile_error_iff` says that a program is refused in no other case.
-/

set_option autoImplicit false
set_option relaxedAutoImplicit false

namespace Toolpath

variable {α : Type}

/-! ### Programs in themselves -/

/-- The targets at one index of the toolpaths, group by group. -/
def targetsAt (toolpaths : List (List (Target α))) (index : Nat) : List (Target α) :=
  toolpaths.filterMap (·[index]?)

/-- What is wrong with a program before any of its targets is solved. -/
inductive Malformed [Scalar α] (cell : Cell α) (toolpaths : List (List (Target α)))
    (stepSize : α) : Prop where
  | groupCount (h : toolpaths.length ≠ cell.groups.length)
  | empty (h : ∀ toolpath ∈ toolpaths, toolpath = [])
  | lengths {toolpath other : List (Target α)} (htoolpath : toolpath ∈ toolpaths)
    (hother : other ∈ toolpaths) (hne : toolpath.length ≠ other.length)
  | stepSize (h : isStepSize stepSize = false)
  | frame {group : Nat} {toolpath : List (Target α)} {target : Target α} {error : CouplingError}
    (htoolpath : toolpaths[group]? = some toolpath) (htarget : target ∈ toolpath)
    (herror : cell.checkFrame target.frame group = .error error)

section WellFormed

variable {toolpaths : List (List (Target α))} {count : Nat}

theorem toolpathLength_eq_ok (hne : toolpaths ≠ []) (hcount : count ≠ 0)
    (h : ∀ toolpath ∈ toolpaths, toolpath.length = count) :
    toolpathLength toolpaths = .ok count := by
  obtain ⟨first, others, rfl⟩ := List.exists_cons_of_ne_nil hne
  have hfirst : ((first :: others).head?.map List.length).getD 0 = count :=
    h first List.mem_cons_self
  rw [toolpathLength, hfirst, if_neg hcount]
  split
  · next found hfound =>
    have hother := List.find?_some hfound
    have hmem := List.fst_mem_of_mem_zipIdx (List.mem_of_find?_eq_some hfound)
    simp [h _ hmem] at hother
  · rfl

theorem ne_zero_of_toolpathLength (h : toolpathLength toolpaths = .ok count) : count ≠ 0 := by
  rw [toolpathLength] at h
  split_ifs at h with hzero
  split at h
  · cases h
  · exact Except.ok.inj h ▸ hzero

theorem ne_nil_of_toolpathLength (h : toolpathLength toolpaths = .ok count) : toolpaths ≠ [] := by
  rintro rfl
  cases h

/-- Below the length of the toolpaths every group has a target. -/
theorem map_some_targetsAt (h : toolpathLength toolpaths = .ok count) {index : Nat}
    (hindex : index < count) : (targetsAt toolpaths index).map some = toolpaths.map (·[index]?) := by
  refine map_some_filterMap fun toolpath htoolpath ↦ ?_
  rw [List.getElem?_eq_getElem, Option.isSome_some]
  rw [length_of_toolpathLength h toolpath htoolpath]
  exact hindex

theorem getElem?_targetsAt (h : toolpathLength toolpaths = .ok count) {index : Nat}
    (hindex : index < count) {group : Nat} {toolpath : List (Target α)}
    (htoolpath : toolpaths[group]? = some toolpath) :
    (targetsAt toolpaths index)[group]? = toolpath[index]? := by
  have hentry := congrArg (·[group]?) (map_some_targetsAt h hindex)
  simp only [List.getElem?_map, htoolpath, Option.map_some] at hentry
  obtain ⟨target, htarget, hsome⟩ := Option.map_eq_some_iff.mp hentry
  rw [htarget, hsome]

variable [Scalar α] {cell : Cell α} {stepSize : α}

/-- A program that is not malformed has steps whose frames can be placed. -/
theorem exists_count_of_not_malformed (h : ¬ Malformed cell toolpaths stepSize) :
    toolpaths.length = cell.groups.length ∧ isStepSize stepSize = true ∧
      ∃ count, toolpathLength toolpaths = .ok count ∧
        checkAllFrames cell (stepsOf toolpaths count) = .ok () := by
  have hgroups : toolpaths.length = cell.groups.length := by
    by_contra hne
    exact h (.groupCount hne)
  have hsize : isStepSize stepSize = true := by
    by_contra hnone
    exact h (.stepSize (Bool.eq_false_iff.mpr hnone))
  obtain ⟨given, hgiven, hnonempty⟩ : ∃ toolpath ∈ toolpaths, toolpath ≠ [] := by
    by_contra hnone
    push Not at hnone
    exact h (.empty hnone)
  have hlength : ∀ toolpath ∈ toolpaths, toolpath.length = given.length := by
    intro toolpath htoolpath
    by_contra hne
    exact h (.lengths htoolpath hgiven hne)
  have hcount : toolpathLength toolpaths = .ok given.length :=
    toolpathLength_eq_ok (List.ne_nil_of_mem hgiven) (mt List.length_eq_zero_iff.mp hnonempty)
      hlength
  have hplaced : ∀ (group : Nat) (toolpath : List (Target α)), toolpaths[group]? = some toolpath →
      ∀ target ∈ toolpath, cell.checkFrame target.frame group = .ok () := by
    intro group toolpath htoolpath target htarget
    cases hcheck : cell.checkFrame target.frame group with
    | error error => exact absurd (.frame htoolpath htarget hcheck) h
    | ok => rfl
  refine ⟨hgroups, hsize, given.length, hcount, forM_eq_ok_iff.mpr fun step hstep ↦ ?_⟩
  exact Cell.checkFrames_eq_ok_iff.mpr (eachTarget_of_mem_stepsOf hcount hplaced step hstep)

theorem not_malformed_of_compile {name : String} {program : Program α}
    (h : Program.compile name cell toolpaths stepSize = .ok program) :
    ¬ Malformed cell toolpaths stepSize := by
  obtain ⟨count, first, rest, prepared, journey, hgroups, hcount, hsize, hsteps, hprepared, _, _⟩ :=
    compile_eq_ok_iff.mp h
  obtain ⟨solutions, hprepares⟩ := exists_prepares hprepared
  have hframes := hprepares.frames
  rw [← hsteps] at hframes
  rintro (hne | hempty | ⟨htoolpath, hother, hne⟩ | hnone | ⟨htoolpath, htarget, herror⟩)
  · exact hne hgroups
  · obtain ⟨toolpath, others, rfl⟩ := List.exists_cons_of_ne_nil (ne_nil_of_toolpathLength hcount)
    have hlength := length_of_toolpathLength hcount toolpath List.mem_cons_self
    rw [hempty toolpath List.mem_cons_self] at hlength
    exact ne_zero_of_toolpathLength hcount hlength.symm
  · exact hne ((length_of_toolpathLength hcount _ htoolpath).trans
      (length_of_toolpathLength hcount _ hother).symm)
  · rw [hsize] at hnone
    cases hnone
  · obtain ⟨index, hindex, rfl⟩ := List.getElem_of_mem htarget
    have hlt : index < count := by
      rwa [← length_of_toolpathLength hcount _ (List.mem_of_getElem? htoolpath)]
    have hstep := forM_eq_ok_iff.mp hframes (.ofTargets index (targetsAt toolpaths index))
      (List.mem_map_of_mem (List.mem_range.mpr hlt))
    have hasked := (getElem?_targetsAt hcount hlt htoolpath).trans
      (List.getElem?_eq_getElem hindex)
    rw [Step.targets_ofTargets] at hstep
    exact absurd (herror.symm.trans (Cell.checkFrames_eq_ok_iff.mp hstep _ _ hasked)) (by simp)

end WellFormed

/-! ### Starts without a configuration -/

/-- One of the targets asks for a straight motion from a solution without a configuration. -/
def StartsUndefined (targets : List (Target α)) (solutions : List (Solution α)) : Prop :=
  ∃ (group : Nat) (target : Target α) (solution : Solution α),
    targets[group]? = some target ∧ solutions[group]? = some solution ∧
      target.isLinear = true ∧ solution.configuration.isUndefined = true

theorem StartsUndefined.congr {targets others : List (Target α)} {solutions : List (Solution α)}
    (hlinear : others.map Target.isLinear = targets.map Target.isLinear)
    (h : StartsUndefined targets solutions) : StartsUndefined others solutions := by
  obtain ⟨group, target, solution, htarget, hsolution, hstraight, hundefined⟩ := h
  have hentry := congrArg (·[group]?) hlinear
  simp only [List.getElem?_map, htarget, Option.map_some] at hentry
  obtain ⟨other, hother, hsame⟩ := Option.map_eq_some_iff.mp hentry
  exact ⟨group, other, solution, hother, hsolution, hsame.trans hstraight, hundefined⟩

theorem Step.undefinedStarts_eq_nil_iff {next previous : Step α} :
    next.undefinedStarts previous = [] ↔ ¬ StartsUndefined next.targets previous.solutions := by
  rw [Step.undefinedStarts, List.filterMap_eq_nil_iff]
  constructor
  · rintro h ⟨group, target, solution, htarget, hsolution, hstraight, hundefined⟩
    rw [Step.targets, List.getElem?_map] at htarget
    rw [Step.solutions, List.getElem?_map] at hsolution
    obtain ⟨waypoint, hwaypoint, rfl⟩ := Option.map_eq_some_iff.mp htarget
    obtain ⟨before, hbefore, rfl⟩ := Option.map_eq_some_iff.mp hsolution
    have hpair := (List.getElem?_zip_eq_some (z := (waypoint, before))).mpr ⟨hwaypoint, hbefore⟩
    simpa [hstraight, hundefined] using
      h ((waypoint, before), group) (List.mem_zipIdx_iff_getElem?.mpr hpair)
  · rintro h ⟨⟨waypoint, before⟩, group⟩ hmem
    obtain ⟨hwaypoint, hbefore⟩ :=
      List.getElem?_zip_eq_some.mp (List.mem_zipIdx_iff_getElem?.mp hmem)
    dsimp only
    rw [if_neg]
    intro hboth
    rw [Bool.and_eq_true] at hboth
    exact h ⟨group, waypoint.target, before.solution, getElem?_targets hwaypoint,
      getElem?_solutions hbefore, hboth.2, hboth.1⟩

/-- The motions that kept these targets and came to these faults go on to the given targets. -/
structure GoesOn (faults : List ProgramFault) (kept : List (Step α)) (targets : List (Target α)) :
    Prop where
  faultless : faults = []
  starts : ∀ last, kept.getLast? = some last → ¬ StartsUndefined targets last.solutions

theorem GoesOn.congr {faults : List ProgramFault} {kept others : List (Step α)}
    {targets : List (Target α)}
    (hsolutions : others.map Step.solutions = kept.map Step.solutions)
    (h : GoesOn faults kept targets) : GoesOn faults others targets where
  faultless := h.faultless
  starts last hlast := by
    have hentry := congrArg List.getLast? hsolutions
    rw [List.getLast?_map, List.getLast?_map, hlast, Option.map_some] at hentry
    obtain ⟨final, hfinal, hsame⟩ := Option.map_eq_some_iff.mp hentry.symm
    rw [← hsame]
    exact h.starts final hfinal

theorem Target.isLinear_withConfiguration (target : Target α)
    (configuration : Option Configuration) :
    (target.withConfiguration configuration).isLinear = target.isLinear := by
  unfold Target.withConfiguration
  cases hgoal : target.goal with
  | joints values => rfl
  | cartesian pose given motion =>
    unfold Target.isLinear
    rw [hgoal]
    cases motion <;> rfl

section Loops

variable [Scalar α] {cell : Cell α} {toolpaths : List (List (Target α))} {stepSize : α}
  {count n : Nat} {first : Step α} {rest : List (Step α)} {solutions : List (Solution α)}
  {prepared : PreparedProgram α}

/-- The motion to the targets at an index is the next one after the motions before. -/
theorem Prepares.exists_next (h : Prepares cell first rest solutions prepared)
    (hsteps : stepsOf toolpaths count = first :: rest) (hlt : n + 1 < count) :
    ∃ next later, prepared.rest.drop n = next :: later ∧
      next.targets.map Target.coupling = (targetsAt toolpaths (n + 1)).map Target.coupling ∧
      next.targets.map Target.isLinear = (targetsAt toolpaths (n + 1)).map Target.isLinear := by
  have hcouplings := h.map_targets_rest (fun _ _ ↦ rfl) Target.coupling_withConfiguration
    fun _ _ ↦ rfl
  have hlinear := h.map_targets_rest (fun _ _ ↦ rfl) Target.isLinear_withConfiguration
    fun _ _ ↦ rfl
  have hgiven : rest[n]? = some (.ofTargets (n + 1) (targetsAt toolpaths (n + 1))) := by
    rw [← List.getElem?_cons_succ (a := first), ← hsteps, stepsOf, List.getElem?_map,
      List.getElem?_range hlt]
    rfl
  have hlength : n < prepared.rest.length := by
    have hsame := congrArg List.length hcouplings
    rw [List.length_map, List.length_map] at hsame
    rw [hsame]
    exact (List.getElem?_eq_some_iff.mp hgiven).1
  refine ⟨prepared.rest[n], prepared.rest.drop (n + 1), List.drop_eq_getElem_cons hlength, ?_, ?_⟩
  · have hentry := congrArg (·[n]?) hcouplings
    simpa [hgiven, hlength, Step.targets_ofTargets] using hentry
  · have hentry := congrArg (·[n]?) hlinear
    simpa [hgiven, hlength, Step.targets_ofTargets] using hentry

/-- A timeline keeps the first target at least, and every target that it keeps has a waypoint for
every group. -/
theorem Prepares.exists_last (h : Prepares cell first rest solutions prepared)
    (hcount : ∀ step ∈ first :: rest, step.waypoints.length = cell.groups.length)
    {begun : Journey α}
    (hbegun : Program.timeline cell stepSize { prepared with rest := prepared.rest.take n } =
      .ok begun) :
    begun.targets.getLast? = some (begun.arrival prepared.first) ∧
      (begun.arrival prepared.first).waypoints.length = cell.groups.length := by
  have hprepared := h.length_waypoints hcount
  have hkept := List.forall_mem_cons.mp hprepared
  have htasks := timeline_tasks_prefix (fun step hstep ↦ hkept.2 step (List.mem_of_mem_take hstep))
    hbegun
  have hlast : begun.targets.getLast? = some (begun.arrival prepared.first) := by
    have hne : begun.targets ≠ [] := by
      rcases timeline_cases hbegun with ⟨_, rfl⟩ | ⟨_, _, _, rfl⟩ <;> exact List.cons_ne_nil _ _
    rw [Journey.arrival, List.getLastD_eq_getLast?, List.getLast?_eq_getLast_of_ne_nil hne]
    rfl
  refine ⟨hlast, ?_⟩
  have hmem := htasks.subset (List.mem_map_of_mem (List.mem_of_getLast? hlast))
  obtain ⟨step, hstep, htask⟩ := List.mem_map.mp hmem
  have hstep' : step ∈ prepared.first :: prepared.rest := by
    rcases List.mem_cons.mp hstep with rfl | hstep
    · exact List.mem_cons_self
    · exact List.mem_cons_of_mem _ (List.mem_of_mem_take hstep)
  rw [← Step.length_targets, ← (Prod.mk.inj htask).2, Step.length_targets, hprepared step hstep']

/-- The timeline of a program is the one of its first targets and the motions from there. -/
theorem Prepares.exists_onward (h : Prepares cell first rest solutions prepared)
    (hcount : ∀ step ∈ first :: rest, step.waypoints.length = cell.groups.length)
    (hsteps : stepsOf toolpaths count = first :: rest) (hlt : n + 1 < count)
    {begun : Journey α}
    (hbegun : Program.timeline cell stepSize { prepared with rest := prepared.rest.take n } =
      .ok begun) :
    ∃ next later, Program.timeline cell stepSize prepared =
        begun.onward cell stepSize prepared.first (next :: later) ∧
      (next.endTargets (begun.arrival prepared.first)).map Target.coupling =
        (targetsAt toolpaths (n + 1)).map Target.coupling ∧
      (GoesOn begun.faults begun.targets (targetsAt toolpaths (n + 1)) ↔
        begun.faults = [] ∧ next.undefinedStarts (begun.arrival prepared.first) = []) := by
  obtain ⟨next, later, hdrop, hcouplings, hlinear⟩ := h.exists_next hsteps hlt
  obtain ⟨hlast, hlength⟩ := h.exists_last hcount hbegun
  have hnext : next.waypoints.length = cell.groups.length := by
    have hmem : next ∈ prepared.rest := List.mem_of_mem_drop (hdrop ▸ List.mem_cons_self)
    exact h.length_waypoints hcount next (List.mem_cons_of_mem _ hmem)
  have hsplit : { prepared with rest := prepared.rest.take n ++ prepared.rest.drop n } = prepared :=
    by rw [List.take_append_drop]
  refine ⟨next, later, ?_, ?_, ?_⟩
  · rw [← hsplit, timeline_append, hbegun, ok_bind, hdrop]
  · rw [Step.couplings_endTargets (hlength.trans hnext.symm), hcouplings]
  · rw [Step.undefinedStarts_eq_nil_iff]
    constructor
    · intro hgoes
      exact ⟨hgoes.faultless, mt (StartsUndefined.congr hlinear.symm) (hgoes.starts _ hlast)⟩
    · rintro ⟨hfaults, hstarts⟩
      refine ⟨hfaults, fun last hfinal ↦ ?_⟩
      obtain rfl := Option.some.inj (hlast.symm.trans hfinal)
      exact mt (StartsUndefined.congr hlinear) hstarts

/-- The motions go on only to targets that do not run in a loop. -/
theorem Prepares.not_hasLoop_of_goesOn (h : Prepares cell first rest solutions prepared)
    (hcount : ∀ step ∈ first :: rest, step.waypoints.length = cell.groups.length)
    (hsteps : stepsOf toolpaths count = first :: rest) (hlt : n + 1 < count)
    {begun journey : Journey α}
    (hbegun : Program.timeline cell stepSize { prepared with rest := prepared.rest.take n } =
      .ok begun)
    (hjourney : Program.timeline cell stepSize prepared = .ok journey)
    (hgoes : GoesOn begun.faults begun.targets (targetsAt toolpaths (n + 1))) :
    ¬ Cell.HasLoop (targetsAt toolpaths (n + 1)) := by
  obtain ⟨next, later, htimeline, hcouplings, hgoesOn⟩ := h.exists_onward hcount hsteps hlt hbegun
  obtain ⟨hfaults, hstarts⟩ := hgoesOn.mp hgoes
  rw [htimeline, Journey.onward, if_pos (List.isEmpty_iff.mpr hfaults)] at hjourney
  obtain ⟨further, hfurther, _⟩ := bind_eq_ok_iff.mp hjourney
  obtain ⟨motion, hmotion, _⟩ := journeyFrom_cons_cases hfurther
  have hsolved : ∀ {solutions : List (Solution α)},
      cell.solve (next.endTargets (begun.arrival prepared.first))
        (some (begun.arrival prepared.first).joints) = .ok solutions →
          ¬ Cell.HasLoop (targetsAt toolpaths (n + 1)) := by
    intro solutions hsolve
    obtain ⟨hends, hframes⟩ := Cell.checked_of_solve hsolve
    rw [Cell.HasLoop, ← Cell.follows_congr hcouplings, ← Cell.HasLoop,
      ← Cell.solve_eq_loop_iff cell hends hframes, hsolve]
    simp
  cases hmotion with
  | undefined hundefined => exact absurd hstarts hundefined
  | unreached hsolve _ => exact hsolved hsolve
  | completed hsolve _ _ _ => exact hsolved hsolve
  | stopped hsolve _ _ _ _ => exact hsolved hsolve

/-- Where the motions do not go on there is a timeline, whatever the targets are that follow. -/
theorem Prepares.exists_timeline_of_not_goesOn (h : Prepares cell first rest solutions prepared)
    (hcount : ∀ step ∈ first :: rest, step.waypoints.length = cell.groups.length)
    (hsteps : stepsOf toolpaths count = first :: rest) (hlt : n + 1 < count)
    {begun : Journey α}
    (hbegun : Program.timeline cell stepSize { prepared with rest := prepared.rest.take n } =
      .ok begun)
    (hends : ¬ GoesOn begun.faults begun.targets (targetsAt toolpaths (n + 1))) :
    ∃ journey, Program.timeline cell stepSize prepared = .ok journey := by
  obtain ⟨next, later, htimeline, _, hgoesOn⟩ := h.exists_onward hcount hsteps hlt hbegun
  rw [htimeline, Journey.onward]
  by_cases hfaults : begun.faults = []
  · have hundefined : (next.undefinedStarts (begun.arrival prepared.first)).isEmpty = false := by
      simpa using fun hstarts ↦ hends (hgoesOn.mpr ⟨hfaults, hstarts⟩)
    have htravel : travel cell stepSize (begun.arrival prepared.first) next begun.total =
        .ok ⟨next, [], [], next.undefinedStarts (begun.arrival prepared.first), begun.total⟩ := by
      simp only [travel, hundefined, Bool.not_false, if_true]
      rfl
    rw [if_pos (List.isEmpty_iff.mpr hfaults)]
    simp only [journeyFrom, htravel, ok_bind, hundefined, Bool.false_eq_true, if_false]
    exact ⟨_, rfl⟩
  · rw [if_neg (mt List.isEmpty_iff.mp hfaults)]
    exact ⟨begun, rfl⟩

/-- Whether the motions go on after the targets before an index shows in the program of those
targets. -/
theorem Prepares.goesOn_iff {name : String} {program : Program α} {targets : List (Target α)}
    (h : Prepares cell first rest solutions prepared)
    (hlength : toolpathLength toolpaths = .ok count)
    (hsteps : stepsOf toolpaths count = first :: rest) (hlt : n < count)
    {begun : Journey α}
    (hbegun : Program.timeline cell stepSize { prepared with rest := prepared.rest.take n } =
      .ok begun)
    (hprogram : Program.compile name cell (toolpaths.map (List.take (n + 1))) stepSize =
      .ok program) :
    GoesOn program.faults program.targets targets ↔ GoesOn begun.faults begun.targets targets := by
  obtain ⟨count', first', rest', solutions', prepared', journey, hstages, rfl⟩ :=
    exists_stages_eq hprogram
  have hagree : (toolpaths.map (List.take (n + 1))).map (List.take (n + 1)) =
      toolpaths.map (List.take (n + 1)) := by
    rw [List.map_map]
    exact List.map_congr_left fun toolpath _ ↦ by simp
  have hcount : count' = n + 1 := by
    obtain ⟨toolpath, others, rfl⟩ := List.exists_cons_of_ne_nil (ne_nil_of_toolpathLength hlength)
    rw [← length_of_toolpathLength hstages.length _ List.mem_cons_self, List.length_take,
      length_of_toolpathLength hlength _ List.mem_cons_self]
    omega
  obtain ⟨rfl, hrest⟩ := take_stepsOf_congr hagree hlength hstages.length hsteps hstages.steps
  have hwhole : prepared'.rest.take n = prepared'.rest := by
    have hlast := hstages.length_rest
    exact List.take_of_length_le (by omega)
  have hprepared := h.withoutNames_congr hstages.prepares hrest
  rw [hwhole] at hprepared
  have hsame := journey_withoutNames_congr hprepared hbegun hstages.timeline
  have hfaults : (Recast.withoutNames.journey journey).faults =
      (Recast.withoutNames.journey begun).faults := congrArg Journey.faults hsame
  have hkept : journey.targets.map Step.withoutNames = begun.targets.map Step.withoutNames := by
    rw [← Recast.step_withoutNames]
    exact congrArg Journey.targets hsame
  have hsolutions : journey.targets.map Step.solutions = begun.targets.map Step.solutions := by
    have hall := congrArg (List.map Step.solutions) hkept
    simpa only [List.map_map, Function.comp_def, Step.withoutNames, Step.solutions_mapTargets]
      using hall
  have hsameFaults : journey.faults = begun.faults := hfaults
  rw [hsameFaults]
  exact ⟨.congr hsolutions.symm, .congr hsolutions⟩

end Loops

/-! ### Refused programs -/

section Refused

variable [Scalar α] {cell : Cell α} {toolpaths : List (List (Target α))} {stepSize : α}
  {count index : Nat}

/-- The motions of a program get to its targets at an index: there is none before it, or those
before it make a program from which the motions go on. -/
def Reaches (name : String) (cell : Cell α) (toolpaths : List (List (Target α))) (stepSize : α)
    (index : Nat) : Prop :=
  index = 0 ∨ ∃ program,
    Program.compile name cell (toolpaths.map (List.take index)) stepSize = .ok program ∧
      GoesOn program.faults program.targets (targetsAt toolpaths index)

omit [Scalar α] in
theorem lt_of_hasLoop (hlength : toolpathLength toolpaths = .ok count)
    (hloop : Cell.HasLoop (targetsAt toolpaths index)) : index < count := by
  by_contra hge
  have hnone : targetsAt toolpaths index = [] := by
    refine List.filterMap_eq_nil_iff.mpr fun toolpath htoolpath ↦ List.getElem?_eq_none ?_
    rw [length_of_toolpathLength hlength toolpath htoolpath]
    omega
  rw [hnone] at hloop
  refine Cell.not_hasLoop_of_lt (fun group carrier hfollows ↦ ?_) hloop
  obtain ⟨target, htarget, _⟩ := hfollows
  cases htarget

/-- The targets at an index can be solved unless they run in a loop. -/
theorem placeable_of_not_hasLoop (hgroups : toolpaths.length = cell.groups.length)
    (hlength : toolpathLength toolpaths = .ok count)
    (hframes : checkAllFrames cell (stepsOf toolpaths count) = .ok ()) (hlt : index < count)
    (hnone : ¬ Cell.HasLoop (targetsAt toolpaths index)) :
    cell.Placeable (targetsAt toolpaths index) where
  count := by
    have hsame := congrArg List.length (map_some_targetsAt hlength hlt)
    rw [List.length_map, List.length_map] at hsame
    rw [hsame, hgroups]
  frames := by
    have hmem : Step.ofTargets index (targetsAt toolpaths index) ∈ stepsOf toolpaths count :=
      List.mem_map_of_mem (List.mem_range.mpr hlt)
    have hstep := forM_eq_ok_iff.mp hframes _ hmem
    rwa [Step.targets_ofTargets] at hstep
  noLoop := hnone

/-- Targets that do not run in a loop up to an index compile. -/
theorem exists_compile_take (name : String) (hgroups : toolpaths.length = cell.groups.length)
    (hsize : isStepSize stepSize = true) (hlength : toolpathLength toolpaths = .ok count)
    (hframes : checkAllFrames cell (stepsOf toolpaths count) = .ok ()) (hpositive : index ≠ 0)
    (hle : index ≤ count)
    (hnone : ∀ before < index, ¬ Cell.HasLoop (targetsAt toolpaths before)) :
    ∃ program, Program.compile name cell (toolpaths.map (List.take index)) stepSize =
      .ok program := by
  have htaken : toolpathLength (toolpaths.map (List.take index)) = .ok index := by
    refine toolpathLength_eq_ok ?_ hpositive fun taken htaken ↦ ?_
    · exact mt List.map_eq_nil_iff.mp (ne_nil_of_toolpathLength hlength)
    · obtain ⟨toolpath, htoolpath, rfl⟩ := List.mem_map.mp htaken
      rw [List.length_take, length_of_toolpathLength hlength toolpath htoolpath]
      omega
  have hsteps : stepsOf (toolpaths.map (List.take index)) index =
      (stepsOf toolpaths count).take index := by
    rw [stepsOf_take, Nat.min_eq_left hle]
  refine exists_compile name (by rw [List.length_map, hgroups]) htaken hsize fun step hstep ↦ ?_
  rw [hsteps, stepsOf, ← List.map_take, List.take_range, Nat.min_eq_left hle] at hstep
  obtain ⟨before, hbefore, rfl⟩ := List.mem_map.mp hstep
  rw [List.mem_range] at hbefore
  rw [Step.targets_ofTargets]
  exact placeable_of_not_hasLoop hgroups hlength hframes (hbefore.trans_le hle)
    (hnone before hbefore)

/-- No program is compiled whose motions get to a loop. -/
theorem not_hasLoop_of_compile {name : String} {program : Program α}
    (h : Program.compile name cell toolpaths stepSize = .ok program)
    (hreaches : Reaches name cell toolpaths stepSize index) :
    ¬ Cell.HasLoop (targetsAt toolpaths index) := by
  intro hloop
  obtain ⟨count, first, rest, solutions, prepared, journey, hstages, rfl⟩ := exists_stages_eq h
  have hlt := lt_of_hasLoop hstages.length hloop
  rcases hreaches with rfl | ⟨before, hbefore, hgoes⟩
  · have hhead : first = .ofTargets 0 (targetsAt toolpaths 0) := by
      have hentry := congrArg (·[0]?) hstages.steps
      simp only [stepsOf, List.getElem?_map, List.getElem?_range hlt] at hentry
      exact (Option.some.inj hentry).symm
    obtain ⟨hends, hframes⟩ := Cell.checked_of_solve hstages.prepares.solve
    have hnone := mt (Cell.solve_eq_loop_iff cell hends hframes none).mpr
      (by rw [hstages.prepares.solve]; simp)
    have hfit : ∀ group target, (fitExternal cell group target).coupling = target.coupling :=
      fun _ _ ↦ rfl
    have hcouplings := Step.map_targets_mapTargets hfit first
    rw [Cell.HasLoop, Cell.follows_congr hcouplings, hhead, Step.targets_ofTargets] at hnone
    exact hnone hloop
  · cases index with
    | zero =>
      have hnil := not_malformed_of_compile hbefore
      exact hnil (.empty fun taken htaken ↦ by
        obtain ⟨toolpath, _, rfl⟩ := List.mem_map.mp htaken
        exact List.take_zero)
    | succ n =>
      obtain ⟨begun, hbegun, _⟩ := hstages.exists_begun n
      rw [hstages.prepares.goesOn_iff hstages.length hstages.steps (by omega) hbegun hbefore]
        at hgoes
      exact hstages.prepares.not_hasLoop_of_goesOn hstages.length_waypoints hstages.steps hlt hbegun
        hstages.timeline hgoes hloop

/-- A program whose motions end before the first loop compiles. -/
theorem exists_compile_of_not_reaches (name : String)
    (hformed : ¬ Malformed cell toolpaths stepSize) {n : Nat}
    (hloop : Cell.HasLoop (targetsAt toolpaths (n + 1)))
    (hnone : ∀ before < n + 1, ¬ Cell.HasLoop (targetsAt toolpaths before))
    (hreaches : ¬ Reaches name cell toolpaths stepSize (n + 1)) :
    ∃ program, Program.compile name cell toolpaths stepSize = .ok program := by
  obtain ⟨hgroups, hsize, count, hlength, hframes⟩ := exists_count_of_not_malformed hformed
  have hlt := lt_of_hasLoop hlength hloop
  have hplaceable : ∀ before < n + 1, cell.Placeable (targetsAt toolpaths before) :=
    fun before hbefore ↦ placeable_of_not_hasLoop hgroups hlength hframes (hbefore.trans hlt)
      (hnone before hbefore)
  have htake : ∀ step ∈ (stepsOf toolpaths count).take (n + 1), cell.Placeable step.targets := by
    intro step hstep
    rw [stepsOf, ← List.map_take, List.take_range] at hstep
    obtain ⟨before, hbefore, rfl⟩ := List.mem_map.mp hstep
    rw [Step.targets_ofTargets]
    exact hplaceable before ((List.mem_range.mp hbefore).trans_le (Nat.min_le_left _ _))
  obtain ⟨before, hbefore⟩ := exists_compile_take name hgroups hsize hlength hframes
    (Nat.succ_ne_zero n) hlt.le hnone
  refine exists_compile_of_timeline name hgroups hlength hsize hframes (fun step hstep ↦ ?_) ?_
  · refine htake step (List.mem_of_head? ?_)
    rwa [List.head?_take, if_neg (Nat.succ_ne_zero n)]
  intro first rest solutions prepared hsteps hwaypoints hprepares
  have hcount : ∀ step ∈ first :: rest, step.waypoints.length = cell.groups.length := by
    rw [← hsteps, ← hgroups]
    exact length_waypoints_of_mem_stepsOf (length_of_toolpathLength hlength)
  have hplaced : ∀ step ∈ prepared.first :: prepared.rest.take n, cell.Placeable step.targets := by
    intro step hstep
    rw [← List.take_succ_cons] at hstep
    have hmem := List.mem_map_of_mem (f := (·.targets.map Target.coupling)) hstep
    rw [List.map_take, hprepares.couplings hwaypoints, ← List.map_take, ← hsteps] at hmem
    obtain ⟨given, hgiven, hcouplings⟩ := List.mem_map.mp hmem
    exact (htake given hgiven).congr hcouplings.symm
  obtain ⟨begun, hbegun⟩ : ∃ begun, Program.timeline cell stepSize
      { prepared with rest := prepared.rest.take n } = .ok begun :=
    exists_timeline stepSize hplaced
  refine hprepares.exists_timeline_of_not_goesOn hcount hsteps hlt hbegun fun hgoes ↦ ?_
  rw [← hprepares.goesOn_iff hlength hsteps (by omega) hbegun hbefore] at hgoes
  exact hreaches (.inr ⟨before, hbefore, hgoes⟩)

/-- A program is refused if it is malformed or if its motions get to a loop, and in no other case. A
loop that the motions do not get to is not found. -/
theorem compile_error_iff {name : String} :
    (∃ error, Program.compile name cell toolpaths stepSize = .error error) ↔
      Malformed cell toolpaths stepSize ∨
        ∃ index, Cell.HasLoop (targetsAt toolpaths index) ∧
          Reaches name cell toolpaths stepSize index := by
  constructor
  · rintro ⟨error, herror⟩
    have hrefused : ¬ ∃ program, Program.compile name cell toolpaths stepSize = .ok program := by
      rintro ⟨program, hprogram⟩
      rw [herror] at hprogram
      cases hprogram
    by_contra hnone
    push Not at hnone
    obtain ⟨hformed, hreaches⟩ := hnone
    obtain ⟨hgroups, hsize, count, hlength, hframes⟩ := exists_count_of_not_malformed hformed
    by_cases hloop : ∃ index, Cell.HasLoop (targetsAt toolpaths index)
    · classical
      obtain ⟨index, hfound, hfirst⟩ := Nat.findX hloop
      cases index with
      | zero => exact hreaches 0 hfound (.inl rfl)
      | succ n =>
        exact hrefused (exists_compile_of_not_reaches name hformed hfound hfirst
          (hreaches (n + 1) hfound))
    · refine hrefused (exists_compile name hgroups hlength hsize fun step hstep ↦ ?_)
      obtain ⟨index, hindex, rfl⟩ := List.mem_map.mp hstep
      rw [Step.targets_ofTargets]
      exact placeable_of_not_hasLoop hgroups hlength hframes (List.mem_range.mp hindex)
        fun hfound ↦ hloop ⟨index, hfound⟩
  · intro h
    cases hcompile : Program.compile name cell toolpaths stepSize with
    | error error => exact ⟨error, rfl⟩
    | ok program =>
      rcases h with hmalformed | ⟨index, hloop, hreaches⟩
      · exact absurd hmalformed (not_malformed_of_compile hcompile)
      · exact absurd hloop (not_hasLoop_of_compile hcompile hreaches)

end Refused

end Toolpath
