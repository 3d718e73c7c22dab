import Toolpath.Program.Stored
import Toolpath.Proofs.Listing
import Toolpath.Proofs.Motions
import Toolpath.Proofs.Planes
import Toolpath.Proofs.Totality

/-!
What is stored beside the targets of a program is right. `StoredStep.ofStep` stores the number of
the step, the place of the group and the instructions of the command with each target. Every change
of a step that is stored in this way comes to the changed step stored in this way: replaced targets
take their instructions along, and the substeps of a motion have the commands of its end. A program
is therefore kept as the plain one is compiled (`StoredProgram.compile_eq_ofStep`).
-/

set_option autoImplicit false
set_option relaxedAutoImplicit false

namespace Toolpath

variable {α : Type}

namespace Step

/-- No motion has led to the step yet. -/
def Unmoved (step : Step α) : Prop :=
  ∀ waypoint ∈ step.waypoints, waypoint.changesConfiguration = false ∧ waypoint.leading = none

/-- What a motion keeps of its target on the way. -/
def script (step : Step α) : Nat × List (List (Instruction α)) :=
  (step.index, step.targets.map Target.instructions)

theorem unmoved_ofTargets [Scalar α] (index : Nat) (targets : List (Target α)) :
    (ofTargets index targets).Unmoved :=
  List.forall_mem_map.mpr fun _ _ ↦ ⟨rfl, rfl⟩

theorem Unmoved.mapTargets {step : Step α} (h : step.Unmoved)
    (change : Nat → Target α → Target α) : (step.mapTargets change).Unmoved :=
  List.forall_mem_map.mpr fun entry hentry ↦ h entry.1 (List.fst_mem_of_mem_zipIdx hentry)

end Step

theorem Step.Unmoved.anchored {step : Step α} (h : step.Unmoved) (cell : Cell α)
    (solutions : List (Solution α)) : (Toolpath.anchored cell step solutions).Unmoved := by
  refine List.forall_mem_map.mpr fun entry hentry ↦ ⟨rfl, ?_⟩
  have hmem := (List.of_mem_zip (List.fst_mem_of_mem_zipIdx hentry)).1
  obtain ⟨group, hgroup⟩ := List.mem_iff_getElem?.mp hmem
  obtain ⟨waypoint, _, hwaypoint, _, hsame⟩ := List.getElem?_zipWith_eq_some.mp hgroup
  exact (congrArg Waypoint.leading hsame.symm).trans (h waypoint (List.mem_of_getElem? hwaypoint)).2

/-! ### Steps -/

namespace StoredStep

/-- The step with what should be stored beside its targets. -/
def ofStep (step : Step α) : StoredStep α :=
  { index := step.index
    entries := step.waypoints.zipIdx.map fun entry ↦ .ofWaypoint step.index entry.2 entry.1
    totalTime := step.totalTime
    deltaTime := step.deltaTime
    minTime := step.minTime
    divisions := step.divisions }

@[simp] theorem step_ofStep (step : Step α) : (ofStep step).step = step := by
  have hwaypoints : step.waypoints.zipIdx.map (fun entry ↦
      (StoredTarget.ofWaypoint step.index entry.2 entry.1).toWaypoint) = step.waypoints :=
    List.zipIdx_map_fst 0 step.waypoints
  rw [StoredStep.step, ofStep, List.map_map]
  exact congrArg (fun waypoints ↦ { step with waypoints }) hwaypoints

theorem map_step_ofStep (steps : List (Step α)) : (steps.map ofStep).map step = steps := by
  rw [List.map_map]
  exact (List.map_congr_left fun step _ ↦ step_ofStep step).trans (List.map_id steps)

theorem getElem?_ofStep (step : Step α) (group : Nat) : (ofStep step).entries[group]? =
    step.waypoints[group]?.map (StoredTarget.ofWaypoint step.index group) := by
  rw [ofStep, List.getElem?_map, List.getElem?_zipIdx, Option.map_map, Nat.zero_add]
  rfl

/-- What the motions do to a step but for its targets. -/
theorem copied_ofStep {arrived step : Step α} (h : step.script = arrived.script) :
    (ofStep arrived).copied step = ofStep step := by
  obtain ⟨hindex, hinstructions⟩ := Prod.mk.inj h
  have hlength : step.waypoints.length = arrived.waypoints.length := by
    simpa using congrArg List.length hinstructions
  have hentries : List.zipWith (fun entry waypoint ↦
      { entry with toWaypoint := waypoint }) (ofStep arrived).entries step.waypoints =
        (ofStep step).entries := by
    refine List.ext_getElem (by simp [ofStep, hlength]) fun group hgroup hplace ↦ ?_
    have hsame : step.waypoints[group]?.map (·.target.instructions) =
        arrived.waypoints[group]?.map (·.target.instructions) := by
      have hgiven := congrArg (·[group]?) hinstructions
      simpa [Step.targets, Function.comp_def] using hgiven
    have hlt : group < step.waypoints.length := by simpa [ofStep] using hplace
    rw [List.getElem?_eq_getElem hlt, List.getElem?_eq_getElem (hlength ▸ hlt)] at hsame
    simp only [ofStep, List.getElem_zipWith, List.getElem_map, List.getElem_zipIdx, Nat.zero_add,
      StoredTarget.ofWaypoint, hindex, Option.some.inj hsame]
  rw [copied, hentries]
  exact congrArg (fun index ↦ { ofStep step with index }) hindex.symm

theorem map_copied_ofStep {arrived : Step α} {steps : List (Step α)}
    (h : ∀ step ∈ steps, step.script = arrived.script) :
    steps.map (ofStep arrived).copied = steps.map ofStep :=
  List.map_congr_left fun step hstep ↦ copied_ofStep (h step hstep)

theorem withSolutions_ofStep (step : Step α) (solutions : List (Solution α))
    (previous : Option (Step α)) : (ofStep step).withSolutions solutions (previous.map ofStep) =
      ofStep (step.withSolutions solutions previous) := by
  have hbefore : ∀ group : Nat, (((previous.map ofStep).bind (·.entries[group]?)).map
      (·.solution.configuration)) =
        (previous.bind (·.waypoints[group]?)).map (·.solution.configuration) := by
    intro group
    cases previous with
    | none => rfl
    | some before =>
      rw [Option.map_some, Option.bind_some, Option.bind_some, getElem?_ofStep, Option.map_map]
      rfl
  simp only [withSolutions, hbefore]
  refine congrArg (fun entries ↦ { ofStep step with entries })
    (List.ext_getElem ?_ fun group _ _ ↦ ?_)
  · simp [ofStep, Step.withSolutions]
  · simp [ofStep, Step.withSolutions, StoredTarget.ofWaypoint]

variable [Scalar α]

theorem dwell_ofStep (step : Step α) : (ofStep step).dwell = step.dwell := by
  have hentries : (ofStep step).entries.map StoredTarget.instructions =
      step.waypoints.map fun waypoint ↦ waypoint.target.instructions := by
    refine List.ext_getElem? fun group ↦ ?_
    rw [List.getElem?_map, getElem?_ofStep, Option.map_map, List.getElem?_map]
    rfl
  rw [dwell, List.flatMap_def, hentries]
  rfl

theorem ofToolpaths_eq_ofStep {toolpaths : List (List (Target α))} {index : Nat}
    (h : ∀ toolpath ∈ toolpaths, index < toolpath.length) :
    ofToolpaths toolpaths index =
      ofStep (.ofTargets index (toolpaths.filterMap (·[index]?))) := by
  have hfrom : ∀ (rows : List (List (Target α))) (start : Nat),
      (∀ toolpath ∈ rows, index < toolpath.length) →
        (rows.zipIdx start).filterMap (fun entry ↦
            entry.1[index]?.map (StoredTarget.ofTarget index entry.2)) =
          (((rows.filterMap (·[index]?)).map Waypoint.ofTarget).zipIdx start).map fun entry ↦
            .ofWaypoint index entry.2 entry.1 := by
    intro rows
    induction rows with
    | nil => intro start _; rfl
    | cons toolpath rest ih =>
      intro start hrows
      rw [List.forall_mem_cons] at hrows
      have htarget := List.getElem?_eq_getElem hrows.1
      rw [List.zipIdx_cons, List.filterMap_cons_some (by rw [htarget, Option.map_some]),
        List.filterMap_cons_some (f := fun row ↦ row[index]?) htarget, List.map_cons,
        List.zipIdx_cons, List.map_cons, ih (start + 1) hrows.2]
      rfl
  exact congrArg (fun entries ↦ { ofStep (.ofTargets index []) with entries }) (hfrom toolpaths 0 h)

/-! ### The preparation -/

/-- Replaced targets take their instructions along, the others have theirs. -/
theorem revise_ofStep {step : Step α} (hstep : step.Unmoved)
    {change? : Nat → Target α → Option (Target α)} {change : Nat → Target α → Target α}
    (hchange : ∀ group target, (change? group target).getD target = change group target) :
    (ofStep step).revise change? = ofStep (step.mapTargets change) := by
  refine congrArg (fun entries ↦ { ofStep step with entries })
    (List.ext_getElem ?_ fun group hgroup _ ↦ ?_)
  · simp [ofStep, Step.mapTargets]
  have hlt : group < step.waypoints.length := by simpa [ofStep] using hgroup
  obtain ⟨hkept, hnone⟩ := hstep _ (List.getElem_mem hlt)
  simp only [ofStep, Step.mapTargets, List.getElem_map, List.getElem_zipIdx, Nat.zero_add,
    StoredTarget.revise, StoredTarget.ofWaypoint, ← hchange]
  cases change? group step.waypoints[group].target with
  | none => rfl
  | some target =>
    simp only [StoredTarget.setTarget, StoredTarget.ofTarget, StoredTarget.ofWaypoint, hkept, hnone]
    rfl

theorem anchor_ofStep {cell : Cell α} {first : Step α} {solutions : List (Solution α)}
    (hfirst : first.Unmoved) (hsolve : cell.solve first.targets none = .ok solutions) :
    anchor cell (ofStep first) = .ok (ofStep (anchored cell first solutions)) := by
  have hlength : solutions.length = first.waypoints.length := by
    obtain ⟨htargets, hsolutions⟩ := Cell.length_of_solve hsolve
    rw [hsolutions, ← htargets, Step.length_targets]
  have hentries : List.zipWith (fun entry solution ↦
      if entry.target.isCartesian then
        entry.setTarget (anchorTarget cell entry.group entry.target solution)
      else entry) (ofStep first).entries solutions =
        (ofStep (first.withTargets (cell.anchoredTargets first.targets solutions))).entries := by
    refine List.ext_getElem ?_ fun group hgroup _ ↦ ?_
    · simp [ofStep, Step.withTargets, cell.length_anchoredTargets hlength, hlength]
    have hlt : group < first.waypoints.length := by simpa [ofStep, hlength] using hgroup
    obtain ⟨hkept, hnone⟩ := hfirst _ (List.getElem_mem hlt)
    simp only [ofStep, Step.withTargets, Step.targets, Cell.anchoredTargets, List.getElem_zipWith,
      List.getElem_map, List.getElem_zipIdx, List.getElem_zip, Nat.zero_add,
      StoredTarget.ofWaypoint, anchorTarget]
    split_ifs
    · simp only [StoredTarget.setTarget, StoredTarget.ofTarget, StoredTarget.ofWaypoint, hkept,
        hnone]
      rfl
    · rfl
  rw [anchor, step_ofStep, hsolve, ok_bind, hentries]
  exact congrArg Except.ok (withSolutions_ofStep (first.withTargets _) solutions none)

end StoredStep

/-! #### Names -/

theorem Command.mapLabels_eq_self {change : Label → Label} {command : Command α}
    (h : ∀ inner, command.Holds inner → change inner.label = inner.label) :
    command.mapLabels change = command := by
  induction command using Command.member_induction with
  | single instruction =>
    have hlabel : change instruction.label = instruction.label := h _ (.itself _)
    rw [mapLabels, hlabel]
  | group label runsBefore members ih =>
    have hlabel : change label = label := h _ (.itself _)
    have hmembers : members.map (mapLabels change) = members :=
      (List.map_congr_left fun command hmember ↦
        ih command hmember fun inner hinner ↦ h inner (.member hmember hinner)).trans
          (List.map_id members)
    rw [mapLabels, mapLabelsAll_eq, hlabel, hmembers]

/-- A target is left as it is by new names for other instances. -/
theorem Target.relabel_eq_self {change : Relabelling} {target : Target α}
    (h : ∀ use, target.Uses use → change use.kind use.label = use.label) :
    target.relabel change = target := by
  have htool : change .tool target.tool.label = target.tool.label := h _ .tool
  have hframe : change .frame target.frame.label = target.frame.label := h _ .frame
  have hspeed : change .speed target.speed.label = target.speed.label := h _ .speed
  have hzone : change .zone target.zone.label = target.zone.label := h _ .zone
  have hcommand : target.command.map (Command.mapLabels (change .command)) = target.command := by
    cases hc : target.command with
    | none => rfl
    | some command =>
      exact congrArg some (Command.mapLabels_eq_self fun inner hinner ↦ h _ (.command hc hinner))
  rw [relabel, htool, hframe, hspeed, hzone, hcommand]

theorem renamed?_getD (change : Relabelling) (target : Target α) :
    (renamed? change target).getD target = target.relabel change := by
  rw [renamed?]
  split_ifs with hany
  · rfl
  · refine (Target.relabel_eq_self fun use huse ↦ ?_).symm
    simp only [List.any_eq_true, not_exists, not_and, bne_iff_ne, not_not] at hany
    exact hany use (Target.mem_attributes.mpr huse)

theorem cleared?_getD (target : Target α) : (cleared? target).getD target =
    if hasIdleConfiguration target then target.withConfiguration none else target := by
  rw [cleared?]
  split_ifs <;> rfl

theorem fitted?_getD [Scalar α] (cell : Cell α) (group : Nat) (target : Target α) :
    (fitted? cell group target).getD target = fitExternal cell group target := by
  rw [fitted?]
  split_ifs with hlength
  · rw [fitExternal, resize_eq_self hlength]
    rfl
  · rfl

namespace StoredStep

variable [Scalar α]

theorem map_revise_ofStep {steps : List (Step α)} (hsteps : ∀ step ∈ steps, step.Unmoved)
    {change? : Nat → Target α → Option (Target α)} {change : Nat → Target α → Target α}
    (hchange : ∀ group target, (change? group target).getD target = change group target) :
    (steps.map ofStep).map (fun stored ↦ stored.revise change?) =
      (steps.map (·.mapTargets change)).map ofStep := by
  rw [List.map_map, List.map_map]
  exact List.map_congr_left fun step hstep ↦ revise_ofStep (hsteps step hstep) hchange

theorem prepare_ofStep {cell : Cell α} {first : Step α} {rest : List (Step α)}
    {solutions : List (Solution α)} {prepared : PreparedProgram α}
    (h : Prepares cell first rest solutions prepared)
    (hunmoved : ∀ step ∈ first :: rest, step.Unmoved) :
    prepare cell (ofStep first) (rest.map ofStep) =
      .ok (ofStep prepared.first, prepared.rest.map ofStep) := by
  rw [List.forall_mem_cons] at hunmoved
  let clear : Nat → Target α → Target α := fun _ target ↦
    if hasIdleConfiguration target then target.withConfiguration none else target
  let start := anchored cell (first.mapTargets (fitExternal cell)) solutions
  let cleared := start.mapTargets clear
  let others := (rest.map (·.mapTargets (fitExternal cell))).map (·.mapTargets clear)
  have hfitted := hunmoved.1.mapTargets (fitExternal cell)
  have hstart : start.Unmoved := hfitted.anchored cell solutions
  have hrest : ∀ step ∈ rest.map (·.mapTargets (fitExternal cell)), step.Unmoved :=
    List.forall_mem_map.mpr fun step hstep ↦ (hunmoved.2 step hstep).mapTargets _
  have hothers : ∀ step ∈ others, step.Unmoved :=
    List.forall_mem_map.mpr fun step hstep ↦ (hrest step hstep).mapTargets _
  have hanchor : anchor cell ((ofStep first).revise (fitted? cell)) = .ok (ofStep start) := by
    rw [revise_ofStep hunmoved.1 (fitted?_getD cell)]
    exact anchor_ofStep hfitted h.solve
  have hfirst : (ofStep start).revise (fun _ ↦ cleared?) = ofStep cleared :=
    revise_ofStep hstart fun _ ↦ cleared?_getD
  have hlater : (rest.map ofStep).map (fun stored ↦
      (stored.revise (fitted? cell)).revise fun _ ↦ cleared?) = others.map ofStep := by
    rw [← map_revise_ofStep hrest fun _ ↦ cleared?_getD,
      ← map_revise_ofStep hunmoved.2 (fitted?_getD cell), List.map_map, List.map_map, List.map_map]
    rfl
  have hframes : checkAllFrames cell ((ofStep first :: rest.map ofStep).map step) = .ok () := by
    rw [List.map_cons, map_step_ofStep, step_ofStep, h.frames]
  rw [prepare, hframes]
  dsimp only
  rw [hanchor, ok_bind, hfirst, hlater, List.map_cons, step_ofStep, map_step_ofStep,
    revise_ofStep (hstart.mapTargets clear) fun _ ↦ renamed?_getD _,
    map_revise_ofStep hothers fun _ ↦ renamed?_getD _]
  obtain ⟨hprepared, hremaining⟩ := List.cons.inj h.steps
  rw [hprepared, hremaining]
  rfl

/-! ### The motions -/

end StoredStep

/-- The outcome of a motion as it is kept. -/
def StoredTravel.ofTravel (motion : Travel α) : StoredTravel α :=
  ⟨.ofStep motion.target, motion.keyframes.map .ofStep, motion.faults, motion.total⟩

/-- The targets and the keyframes of a journey as they are kept. -/
def StoredProgram.ofJourney (journey : Journey α) : StoredProgram α :=
  ⟨journey.targets.map .ofStep, journey.keyframes.map .ofStep⟩

namespace StoredStep

variable [Scalar α] {cell : Cell α} {stepSize : α} {previous next : Step α}

/-- The turning points of a motion have its script. -/
theorem script_of_mem_turningPoints {arrived : Step α} {substeps : List (Substep α)}
    (h : ∀ substep ∈ substeps, substep.step.script = arrived.script) (everySubstep : Bool) :
    ∀ step ∈ turningPoints everySubstep substeps, step.script = arrived.script := by
  intro step hstep
  obtain ⟨substep, hsubstep, rfl⟩ := List.mem_map.mp
    ((List.dropLast_sublist _).subset ((turningPoints_sublist _ _).subset hstep))
  exact h substep hsubstep

/-- Stamped steps are copied as well. -/
theorem map_copied_stampDeltas {arrived : Step α} {steps : List (Step α)}
    (h : ∀ step ∈ steps, step.script = arrived.script) (start : α) :
    (stampDeltas start steps).map (ofStep arrived).copied = (stampDeltas start steps).map ofStep :=
  map_copied_ofStep (forall_mem_stampDeltas (fun _ _ ↦ rfl) h)

theorem complete_ofStep {arrived : Step α} {substeps : List (Substep α)}
    (h : ∀ substep ∈ substeps, substep.step.script = arrived.script) (divisions : Nat) (start : α)
    (warnings : List (Warning α)) :
    (ofStep arrived).complete cell divisions start substeps =
      .ofTravel (completeTravel cell arrived divisions start warnings substeps) := by
  let last := (substeps.getLast?.map Substep.step).getD arrived
  let total := if 0 < arrived.dwell then last.totalTime + arrived.dwell else last.totalTime
  have hlast : last.script = arrived.script := by
    cases hfinal : substeps.getLast? with
    | none => simp only [last, hfinal, Option.map_none, Option.getD_none]
    | some final =>
      simp only [last, hfinal, Option.map_some, Option.getD_some]
      exact h final (List.mem_of_getLast? hfinal)
  have hrow : ∀ step ∈ turningPoints cell.hasRedundantArm substeps ++ [last] ++
      (if 0 < arrived.dwell then [{ last with totalTime := total }] else []),
        step.script = arrived.script := by
    intro step hstep
    rcases List.mem_append.mp hstep with hmoved | hdwelt
    · rcases List.mem_append.mp hmoved with hturn | hend
      · exact script_of_mem_turningPoints h _ step hturn
      · rw [List.mem_singleton.mp hend, hlast]
    · split_ifs at hdwelt
      · exact (congrArg Step.script (List.mem_singleton.mp hdwelt)).trans hlast
      · cases hdwelt
  have hentries : (ofStep arrived).entries.zipIdx.map (fun entry ↦
      { entry.1 with leading :=
          (Pace.slowest? (groupPaces substeps entry.2)).map Pace.leading }) =
        (ofStep
          (completeTravel cell arrived divisions start warnings substeps).target).entries := by
    refine List.ext_getElem ?_ fun group _ _ ↦ ?_
    · simp [ofStep, completeTravel]
    · simp [ofStep, completeTravel, StoredTarget.ofWaypoint]
  have hkeyframes := map_copied_stampDeltas hrow start
  rw [complete, StoredTravel.ofTravel, StoredTravel.mk.injEq]
  simp only [step_ofStep, dwell_ofStep]
  refine ⟨?_, hkeyframes, rfl, rfl⟩
  exact congrArg (fun entries ↦ { ofStep (completeTravel cell arrived divisions start warnings
    substeps).target with entries }) hentries

theorem script_of_substepsFrom {arrived : Step α} {divisions count number : Nat}
    {substeps : List (Substep α)} {faults : List ProgramFault}
    (hprevious : previous.waypoints.length = cell.groups.length)
    (harrived : arrived.waypoints.length = cell.groups.length)
    (h : substepsFrom cell previous arrived divisions count number previous previous.totalTime =
      .ok (substeps, faults)) : ∀ substep ∈ substeps, substep.step.script = arrived.script := by
  intro substep hsubstep
  obtain ⟨place, before, hsolved⟩ := exists_solvedFrom_of_mem harrived h hsubstep
  rw [Step.script, hsolved.index, hsolved.targets, Step.map_targets_between (fun _ _ _ ↦ rfl) cell _
    (hprevious.trans harrived.symm)]
  rfl

theorem travel_ofStep (hprevious : previous.waypoints.length = cell.groups.length)
    (hnext : next.waypoints.length = cell.groups.length) :
    travel cell stepSize (ofStep previous) (ofStep next) previous.totalTime =
      (Toolpath.travel cell stepSize previous next previous.totalTime).map .ofTravel := by
  rw [travel, Toolpath.travel, step_ofStep, step_ofStep]
  by_cases hundefined : (next.undefinedStarts previous).isEmpty = true
  · simp only [hundefined, Bool.not_true, Bool.false_eq_true, if_false]
    cases hsolve : cell.solve (next.endTargets previous) (some previous.joints) with
    | error error => rfl
    | ok solutions =>
      have hstored : (ofStep next).withSolutions solutions (some (ofStep previous)) =
          ofStep (arrivedAt previous next solutions) :=
        withSolutions_ofStep next solutions (some previous)
      have harrived := Travelled.length_arrivedAt hnext hsolve
      simp only [ok_bind, hstored, step_ofStep, ← arrivedAt.eq_def]
      by_cases hreached : (ProgramFault.ofStep (arrivedAt previous next solutions)).isEmpty = true
      · simp only [hreached, Bool.not_true, Bool.false_eq_true, if_false]
        cases hsubsteps : substepsFrom cell previous (arrivedAt previous next solutions)
            ((arrivedAt previous next solutions).motionDivisions previous stepSize)
            ((arrivedAt previous next solutions).motionDivisions previous stepSize) 1 previous
            previous.totalTime with
        | error error => rfl
        | ok result =>
          have hscript := script_of_substepsFrom hprevious harrived hsubsteps
          have hkeyframes := map_copied_stampDeltas
            (script_of_mem_turningPoints hscript cell.hasRedundantArm) previous.totalTime
          simp only [ok_bind, hkeyframes, complete_ofStep hscript _ _
            ((arrivedAt previous next solutions).endWarnings previous)]
          split_ifs <;> rfl
      · simp only [hreached]
        rfl
  · simp only [hundefined]
    rfl

/-! ### Programs -/

theorem journeyFrom_ofStep (stepSize : α) {rest : List (Step α)}
    (hrest : ∀ step ∈ rest, step.waypoints.length = cell.groups.length) :
    ∀ {previous : Step α}, previous.waypoints.length = cell.groups.length →
      journeyFrom cell stepSize (ofStep previous) previous.totalTime (rest.map ofStep) =
        (Toolpath.journeyFrom cell stepSize previous previous.totalTime rest).map .ofJourney := by
  induction rest with
  | nil => intro previous _; rfl
  | cons next rest ih =>
    intro previous hprevious
    rw [List.forall_mem_cons] at hrest
    rw [List.map_cons, journeyFrom, Toolpath.journeyFrom, travel_ofStep hprevious hrest.1]
    cases hmotion : Toolpath.travel cell stepSize previous next previous.totalTime with
    | error error => rfl
    | ok motion =>
      have htravelled := travelled_of_travel hmotion
      rw [ok_bind]
      by_cases hfaults : motion.faults = []
      · have htarget : motion.target.waypoints.length = cell.groups.length := by
          rw [← Step.length_targets, (Prod.mk.inj (htravelled.task hrest.1)).2, Step.length_targets,
            hrest.1]
        have honward := ih hrest.2 htarget
        rw [htravelled.totalTime_target hfaults] at honward
        simp only [Except.map, StoredTravel.ofTravel, ok_bind, hfaults, List.isEmpty_nil, if_true,
          honward]
        cases Toolpath.journeyFrom cell stepSize motion.target motion.total rest with
        | error error => rfl
        | ok onward =>
          simp only [ok_bind, StoredProgram.ofJourney]
          exact congrArg Except.ok (congrArg₂ StoredProgram.mk rfl List.map_append.symm)
      · simp only [Except.map, StoredTravel.ofTravel, ok_bind, List.isEmpty_iff, hfaults, if_false]
        rfl

theorem timeline_ofStep {prepared : PreparedProgram α} {journey : Journey α}
    (hlengths : ∀ step ∈ prepared.first :: prepared.rest,
      step.waypoints.length = cell.groups.length)
    (h : Program.timeline cell stepSize prepared = .ok journey) :
    timeline cell stepSize (ofStep prepared.first) (prepared.rest.map ofStep) =
      .ok (.ofJourney journey) := by
  rw [List.forall_mem_cons] at hlengths
  rw [timeline, step_ofStep]
  rcases timeline_cases h with ⟨hfaults, rfl⟩ | ⟨hfaults, onward, honward, rfl⟩
  · rw [if_pos (by simpa using hfaults)]
    rfl
  · have hkept := journeyFrom_ofStep stepSize hlengths.2
      ((length_waypoints_keptFirst prepared.first).trans hlengths.1)
    rw [honward] at hkept
    rw [if_neg (by simp [hfaults]), dwell_ofStep]
    unfold startKeyframes
    unfold keptFirst at hkept ⊢
    by_cases hdwell : 0 < prepared.first.dwell
    all_goals
      simp only [hdwell, if_true, if_false] at hkept ⊢
      exact congrArg (· >>= _) hkept

end StoredStep

/-- A program is kept as the plain one is compiled, with the right numbers, groups and instructions
beside its targets. -/
theorem StoredProgram.compile_eq_ofStep [Scalar α] {name : String} {cell : Cell α}
    {toolpaths : List (List (Target α))} {stepSize : α} {program : Program α}
    (h : Program.compile name cell toolpaths stepSize = .ok program) :
    StoredProgram.compile cell toolpaths stepSize =
      .ok ⟨program.targets.map .ofStep, program.keyframes.map .ofStep⟩ := by
  obtain ⟨count, first, rest, prepared, journey, hgroups, hcount, hsize, hsteps, hprepare,
    htimeline, rfl⟩ := compile_eq_ok_iff.mp h
  obtain ⟨solutions, hprepares⟩ := exists_prepares hprepare
  have hstored : (List.range count).map (StoredStep.ofToolpaths toolpaths) =
      .ofStep first :: rest.map .ofStep := by
    rw [← List.map_cons, ← hsteps, stepsOf, List.map_map]
    refine List.map_congr_left fun index hindex ↦ StoredStep.ofToolpaths_eq_ofStep ?_
    intro toolpath htoolpath
    rw [length_of_toolpathLength hcount toolpath htoolpath]
    exact List.mem_range.mp hindex
  have hunmoved : ∀ step ∈ first :: rest, step.Unmoved := by
    rw [← hsteps]
    exact List.forall_mem_map.mpr fun index _ ↦ Step.unmoved_ofTargets index _
  have hlengths : ∀ step ∈ first :: rest, step.waypoints.length = cell.groups.length := by
    rw [← hsteps, ← hgroups]
    exact length_waypoints_of_mem_stepsOf (length_of_toolpathLength hcount)
  have hprepared := StoredStep.prepare_ofStep hprepares hunmoved
  have hkept := StoredStep.timeline_ofStep (hprepares.length_waypoints hlengths) htimeline
  simp only [StoredProgram.compile, hgroups, hcount, hsize, hstored, hprepared, hkept, ok_bind,
    ne_eq, not_true_eq_false, Bool.not_true, Bool.false_eq_true, if_false]
  rfl

end Toolpath
