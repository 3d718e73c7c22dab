import Toolpath.Proofs.Continuation
import Toolpath.Proofs.Substeps
import Toolpath.Proofs.Totality

/-!
Changes that no motion can tell. A `Recast` gives targets other attributes and solutions other
poses. It is `Faithful` where the cell solves the recast targets to the recast solutions, and where
nothing that a motion reads of a target or of a solution is changed: the instance of a frame, the
limits of a speed, the dwells of a command, axis values, configurations and faults, and tool centre
points in the coordinates of a frame.

Motions, journeys and timelines of recast steps are then the recast motions, journeys and timelines
(`Faithful.travel_eq`, `Faithful.journeyFrom_eq`, `Faithful.timeline_eq`). Names are such a change,
and so is the place where the cell stands.
-/

set_option autoImplicit false
set_option relaxedAutoImplicit false

namespace Toolpath

variable {α : Type}

/-- Other attributes for targets, and other solutions and errors with them. -/
structure Recast (α : Type) where
  tool : Tool α → Tool α
  frame : Frame α → Frame α
  speed : Speed α → Speed α
  zone : Zone α → Zone α
  command : Command α → Command α
  solution : Solution α → Solution α
  error : StructureError α → StructureError α

namespace Recast

variable (r : Recast α)

def target (target : Target α) : Target α :=
  { target with
    tool := r.tool target.tool
    frame := r.frame target.frame
    speed := r.speed target.speed
    zone := r.zone target.zone
    command := target.command.map r.command }

def waypoint (waypoint : Waypoint α) : Waypoint α :=
  { waypoint with target := r.target waypoint.target, solution := r.solution waypoint.solution }

def step (step : Step α) : Step α :=
  { step with waypoints := step.waypoints.map r.waypoint }

def substep (substep : Substep α) : Substep α :=
  { substep with step := r.step substep.step }

def travel (motion : Travel α) : Travel α :=
  { motion with target := r.step motion.target, keyframes := motion.keyframes.map r.step }

def journey (journey : Journey α) : Journey α :=
  { journey with
    targets := journey.targets.map r.step
    keyframes := journey.keyframes.map r.step }

/-- The steps of a prepared program, recast. -/
def prepared (prepared : PreparedProgram α) : PreparedProgram α :=
  { prepared with first := r.step prepared.first, rest := prepared.rest.map r.step }

/-- What a computation comes to, recast. -/
def outcome {β γ : Type} (f : β → γ) :
    Except (StructureError α) β → Except (StructureError α) γ
  | .error error => .error (r.error error)
  | .ok result => .ok (f result)

variable {r}

theorem outcome_bind {β γ β' γ' : Type} {f : β → β'} {g : γ → γ'}
    {x : Except (StructureError α) β} {next : β → Except (StructureError α) γ}
    {next' : β' → Except (StructureError α) γ'}
    (h : ∀ result, x = .ok result → next' (f result) = r.outcome g (next result)) :
    r.outcome f x >>= next' = r.outcome g (x >>= next) := by
  cases x with
  | error error => rfl
  | ok result => exact h result rfl

theorem eq_outcome_of_ok {β γ : Type} {f : β → γ} {x : Except (StructureError α) β}
    {y : Except (StructureError α) γ} (h : y = r.outcome f x) {result : β} (hx : x = .ok result) :
    y = .ok (f result) := by
  rw [h, hx]
  rfl

/-! ### What a step keeps -/

@[simp] theorem isLinear_target (target : Target α) : (r.target target).isLinear = target.isLinear :=
  rfl

theorem withConfiguration_target (target : Target α) (configuration : Option Configuration) :
    (r.target target).withConfiguration configuration =
      r.target (target.withConfiguration configuration) := by
  cases hgoal : target.goal with
  | cartesian pose forced motion =>
    have hsame : (r.target target).goal = .cartesian pose forced motion := hgoal
    simp only [Target.withConfiguration, hgoal, hsame]
    rfl
  | joints values =>
    have hsame : (r.target target).goal = .joints values := hgoal
    simp only [Target.withConfiguration, hgoal, hsame]

theorem targets_step (step : Step α) : (r.step step).targets = step.targets.map r.target := by
  simp [Step.targets, Recast.step, waypoint, Function.comp_def]

theorem withTargets_step (step : Step α) (targets : List (Target α)) :
    (r.step step).withTargets (targets.map r.target) = r.step (step.withTargets targets) := by
  simp only [Step.withTargets, Recast.step, List.zipWith_map, List.map_zipWith]
  rfl

/-- What is done to the targets may be done before or after the recast. -/
theorem mapTargets_step {change change' : Nat → Target α → Target α}
    (h : ∀ group target, r.target (change group target) = change' group (r.target target))
    (step : Step α) : r.step (step.mapTargets change) = (r.step step).mapTargets change' := by
  simp [Step.mapTargets, Recast.step, waypoint, List.zipIdx_map, Function.comp_def, h]

theorem stampDeltas_map (steps : List (Step α)) [Scalar α] :
    ∀ start : α, stampDeltas start (steps.map r.step) = (stampDeltas start steps).map r.step := by
  induction steps with
  | nil => intro start; rfl
  | cons step rest ih =>
    intro start
    simp only [List.map_cons, stampDeltas, ih]
    rfl

theorem turningPoints_map [Scalar α] (everySubstep : Bool) (substeps : List (Substep α)) :
    turningPoints everySubstep (substeps.map r.substep) =
      (turningPoints everySubstep substeps).map r.step := by
  fun_induction turningPoints everySubstep substeps with
  | case1 first second rest hturn ih =>
    rw [List.map_cons] at ih
    rw [List.map_cons, List.map_cons, turningPoints, List.map_cons, ← ih]
    exact if_pos hturn
  | case2 first second rest hturn ih =>
    rw [List.map_cons] at ih
    rw [List.map_cons, List.map_cons, turningPoints, ← ih]
    exact if_neg hturn
  | case3 substeps hshort =>
    rcases substeps with _ | ⟨first, _ | ⟨second, rest⟩⟩
    · rfl
    · rfl
    · exact absurd rfl (hshort first second rest)

theorem groupPaces_map (substeps : List (Substep α)) (group : Nat) :
    groupPaces (substeps.map r.substep) group = groupPaces substeps group := by
  rw [groupPaces, groupPaces, List.filterMap_map]
  rfl

/-! ### Recasts that motions do not tell -/

variable [Scalar α]

/-- The cell `other` solves recast targets as `cell` solves the targets that it `admits`, with
recast solutions; and motions between `sound` solutions read nothing that is changed. -/
structure Faithful (r : Recast α) (cell other : Cell α) (admits : Tool α → Frame α → Prop)
    (sound : Solution α → Prop) : Prop where
  groups : other.groups = cell.groups
  key : ∀ frame, (r.frame frame).label.key = frame.label.key
  limits : ∀ speed, r.speed speed = { speed with label := (r.speed speed).label }
  waits : ∀ command, (r.command command).flatten.filterMap Instruction.waitSeconds? =
    command.flatten.filterMap Instruction.waitSeconds?
  joints : ∀ solution, (r.solution solution).joints = solution.joints
  configuration : ∀ solution, (r.solution solution).configuration = solution.configuration
  faults : ∀ solution, (r.solution solution).faults = solution.faults
  /-- The tool centre point of one solution in the frame of another one. -/
  relative : ∀ {placed moved}, sound placed → sound moved →
    (r.solution placed).frame.inverse * (r.solution moved).tcp = placed.frame.inverse * moved.tcp
  solve : ∀ {targets : List (Target α)}, (∀ target ∈ targets, admits target.tool target.frame) →
    ∀ previous, other.solve (targets.map r.target) previous =
      r.outcome (List.map r.solution) (cell.solve targets previous)
  solved : ∀ {targets : List (Target α)}, (∀ target ∈ targets, admits target.tool target.frame) →
    ∀ {previous solutions}, cell.solve targets previous = .ok solutions →
      ∀ solution ∈ solutions, sound solution

end Recast

/-- The targets of the step are admitted. -/
def Step.Admitted (admits : Tool α → Frame α → Prop) (step : Step α) : Prop :=
  ∀ target ∈ step.targets, admits target.tool target.frame

/-- The solutions of the step are sound. -/
def Step.Sound (sound : Solution α → Prop) (step : Step α) : Prop :=
  ∀ waypoint ∈ step.waypoints, sound waypoint.solution

theorem Step.sound_iff {sound : Solution α → Prop} {step : Step α} :
    step.Sound sound ↔ ∀ solution ∈ step.solutions, sound solution := by
  simp [Step.Sound, Step.solutions]

namespace Recast.Faithful

variable [Scalar α] {r : Recast α} {cell other : Cell α} {admits : Tool α → Frame α → Prop}
  {sound : Solution α → Prop} (h : r.Faithful cell other admits sound)

include h

/-! #### Waypoints -/

section Waypoints

variable {waypoint previous : Waypoint α}

theorem sharesFrame_eq : (r.waypoint waypoint).sharesFrame (r.waypoint previous) =
    waypoint.sharesFrame previous := by
  have hkeys : ∀ given : Waypoint α, (r.waypoint given).target.frame.label.key =
      given.target.frame.label.key := fun given ↦ h.key given.target.frame
  rw [Waypoint.sharesFrame, hkeys, hkeys, Waypoint.sharesFrame]

variable (hwaypoint : sound waypoint.solution) (hprevious : sound previous.solution)

include hwaypoint

theorem plane_eq : (r.waypoint waypoint).plane = waypoint.plane := by
  unfold Waypoint.plane
  cases hgoal : waypoint.target.goal with
  | cartesian pose forced motion =>
    have hsame : (r.waypoint waypoint).target.goal = .cartesian pose forced motion := hgoal
    rw [hsame]
  | joints values =>
    have hsame : (r.waypoint waypoint).target.goal = .joints values := hgoal
    rw [hsame]
    exact h.relative hwaypoint hwaypoint

include hprevious

theorem previousPlane_eq : (r.waypoint waypoint).previousPlane (r.waypoint previous) =
    waypoint.previousPlane previous := by
  rw [Waypoint.previousPlane, h.sharesFrame_eq, Waypoint.previousPlane]
  cases waypoint.sharesFrame previous with
  | false => exact h.relative hwaypoint hprevious
  | true => exact h.relative hprevious hprevious

theorem between_eq (armAxes : Nat) (m : Moment α) :
    (r.waypoint waypoint).between (r.waypoint previous) armAxes m =
      r.target (waypoint.between previous armAxes m) := by
  have hstop : (r.waypoint waypoint).solution.joints = waypoint.solution.joints := h.joints _
  have hstart : (r.waypoint previous).solution.joints = previous.solution.joints := h.joints _
  unfold Waypoint.between
  rw [hstop, hstart, h.previousPlane_eq hwaypoint hprevious]
  cases hgoal : waypoint.target.goal with
  | cartesian pose forced motion =>
    have hsame : (r.waypoint waypoint).target.goal = .cartesian pose forced motion := hgoal
    rw [hsame]
    cases motion <;> rfl
  | joints values =>
    have hsame : (r.waypoint waypoint).target.goal = .joints values := hgoal
    rw [hsame]
    rfl

theorem pathLength_eq : (r.waypoint waypoint).pathLength (r.waypoint previous) =
    waypoint.pathLength previous := by
  rw [Waypoint.pathLength, h.previousPlane_eq hwaypoint hprevious, h.plane_eq hwaypoint,
    Waypoint.pathLength]

theorem divisions_eq (stepSize : α) :
    (r.waypoint waypoint).divisions (r.waypoint previous) stepSize =
      waypoint.divisions previous stepSize := by
  rw [Waypoint.divisions, h.pathLength_eq hwaypoint hprevious, Waypoint.divisions]
  rfl

theorem isStill_eq : (r.waypoint waypoint).isStill (r.waypoint previous) =
    waypoint.isStill previous := by
  have hstop : (r.waypoint waypoint).solution.joints = waypoint.solution.joints := h.joints _
  have hstart : (r.waypoint previous).solution.joints = previous.solution.joints := h.joints _
  rw [Waypoint.isStill, h.pathLength_eq hwaypoint hprevious, h.plane_eq hwaypoint,
    h.previousPlane_eq hwaypoint hprevious, hstop, hstart, Waypoint.isStill]

theorem endWarnings_eq (target group : Nat) :
    (r.waypoint waypoint).endWarnings target group (r.waypoint previous) =
      waypoint.endWarnings target group previous := by
  have hstop : (r.waypoint waypoint).solution.configuration = waypoint.solution.configuration :=
    h.configuration _
  have hstart : (r.waypoint previous).solution.configuration = previous.solution.configuration :=
    h.configuration _
  rw [Waypoint.endWarnings, h.isStill_eq hwaypoint hprevious, hstop, hstart, Waypoint.endWarnings]
  rfl

theorem pace_eq (group : Group α) (divisions : Nat) :
    group.pace (r.waypoint previous) (r.waypoint waypoint) divisions =
      group.pace previous waypoint divisions := by
  have hstop : (r.waypoint waypoint).solution.joints = waypoint.solution.joints := h.joints _
  have hstart : (r.waypoint previous).solution.joints = previous.solution.joints := h.joints _
  have hspeed : (r.waypoint waypoint).target.speed = { waypoint.target.speed with
      label := (r.speed waypoint.target.speed).label } := h.limits _
  rw [Group.pace, hspeed, hstop, hstart, h.previousPlane_eq hwaypoint hprevious,
    h.plane_eq hwaypoint, Group.pace]
  rfl

end Waypoints

/-! #### Steps -/

section Steps

variable {next previous : Step α}

theorem joints_step (step : Step α) : (r.step step).joints = step.joints := by
  simp [Step.joints, Recast.step, Recast.waypoint, h.joints]

theorem faults_step (step : Step α) : (r.step step).faults = step.faults := by
  simp [Step.faults, Recast.step, Recast.waypoint, List.zipIdx_map, List.flatMap_map, h.faults]

theorem ofStep_eq (step : Step α) :
    ProgramFault.ofStep (r.step step) = ProgramFault.ofStep step := by
  rw [ProgramFault.ofStep, h.faults_step, ProgramFault.ofStep]
  rfl

theorem dwell_step (step : Step α) : (r.step step).dwell = step.dwell := by
  have hwaits : ∀ target : Target α,
      (r.target target).instructions.filterMap Instruction.waitSeconds? =
        target.instructions.filterMap Instruction.waitSeconds? := by
    intro target
    cases hcommand : target.command with
    | none => simp [Target.instructions, Recast.target, hcommand]
    | some command => simpa [Target.instructions, Recast.target, hcommand] using h.waits command
  have hsteps : (r.step step).instructions.filterMap Instruction.waitSeconds? =
      step.instructions.filterMap Instruction.waitSeconds? := by
    simp only [Step.instructions, Recast.step, List.filterMap_flatMap, List.flatMap_map]
    exact List.flatMap_congr fun waypoint _ ↦ hwaits waypoint.target
  rw [Step.dwell, hsteps, Step.dwell]

theorem withSolutions_step (step : Step α) (solutions : List (Solution α))
    (before : Option (Step α)) :
    (r.step step).withSolutions (solutions.map r.solution) (before.map r.step) =
      r.step (step.withSolutions solutions before) := by
  have hbefore : ∀ group : Nat, (((before.map r.step).bind (·.waypoints[group]?)).map
      (·.solution.configuration)) =
        (before.bind (·.waypoints[group]?)).map (·.solution.configuration) := by
    intro group
    cases before with
    | none => rfl
    | some step =>
      simp [Recast.step, Recast.waypoint, Function.comp_def, h.configuration]
  simp only [Step.withSolutions, hbefore]
  simp [Recast.step, Recast.waypoint, List.zip_map, List.zipIdx_map, Function.comp_def,
    h.configuration]

theorem undefinedStarts_eq :
    (r.step next).undefinedStarts (r.step previous) = next.undefinedStarts previous := by
  simp [Step.undefinedStarts, Recast.step, Recast.waypoint, List.zip_map, List.zipIdx_map,
    List.filterMap_map, h.configuration]

theorem endTargets_eq : (r.step next).endTargets (r.step previous) =
    (next.endTargets previous).map r.target := by
  simp only [Step.endTargets, Recast.step, List.zipWith_map, List.map_zipWith, Recast.waypoint,
    h.configuration, isLinear_target, withConfiguration_target, apply_ite r.target]

variable (hnext : next.Sound sound) (hprevious : previous.Sound sound)

include hnext hprevious

theorem between_step_eq (m : Moment α) :
    (r.step next).between (r.step previous) other m = (next.between previous cell m).map r.target := by
  have haxes : other.armAxisCount = cell.armAxisCount := by
    funext group
    rw [Cell.armAxisCount, h.groups, Cell.armAxisCount]
  simp only [Step.between, haxes, Recast.step, List.zip_map, List.zipIdx_map, List.map_map]
  refine List.map_congr_left ?_
  rintro ⟨⟨waypoint, before⟩, group⟩ hmem
  have hpair := List.of_mem_zip (List.fst_mem_of_mem_zipIdx hmem)
  exact h.between_eq (hnext _ hpair.1) (hprevious _ hpair.2) _ m

theorem motionDivisions_eq (stepSize : α) :
    (r.step next).motionDivisions (r.step previous) stepSize =
      next.motionDivisions previous stepSize := by
  simp only [Step.motionDivisions, Recast.step, ← List.map_uncurry_zip_eq_zipWith, List.zip_map,
    List.map_map]
  congr 1
  refine List.map_congr_left ?_
  rintro ⟨waypoint, before⟩ hmem
  have hpair := List.of_mem_zip hmem
  exact h.divisions_eq (hnext _ hpair.1) (hprevious _ hpair.2) stepSize

theorem step_endWarnings_eq :
    (r.step next).endWarnings (r.step previous) = next.endWarnings previous := by
  simp only [Step.endWarnings, Recast.step, List.zip_map, List.zipIdx_map, List.flatMap_map]
  refine List.flatMap_congr ?_
  rintro ⟨⟨waypoint, before⟩, group⟩ hmem
  have hpair := List.of_mem_zip (List.fst_mem_of_mem_zipIdx hmem)
  exact h.endWarnings_eq (hnext _ hpair.1) (hprevious _ hpair.2) next.index group

theorem paces_eq (divisions : Nat) :
    other.paces (r.step previous) (r.step next) divisions = cell.paces previous next divisions := by
  have hzip : (r.step previous).waypoints.zip (r.step next).waypoints =
      (previous.waypoints.zip next.waypoints).map (Prod.map r.waypoint r.waypoint) := List.zip_map
  rw [Cell.paces, h.groups, hzip, List.zip_map_right, List.map_map, Cell.paces]
  refine List.map_congr_left fun ⟨group, before, waypoint⟩ hmem ↦ ?_
  have hpair := List.of_mem_zip (List.of_mem_zip hmem).2
  exact h.pace_eq (hnext _ hpair.2) (hprevious _ hpair.1) group divisions

end Steps

/-! #### Motions -/

section Motions

variable {next previous : Step α}

/-- The solutions of admitted targets are sound. -/
theorem sound_withSolutions {targets : List (Target α)}
    (htargets : ∀ target ∈ targets, admits target.tool target.frame)
    {joints : Option (List (List α))} {solutions : List (Solution α)}
    (hsolve : cell.solve targets joints = .ok solutions) (step : Step α)
    (before : Option (Step α)) : (step.withSolutions solutions before).Sound sound := by
  intro waypoint hwaypoint
  obtain ⟨⟨⟨given, solution⟩, group⟩, hentry, rfl⟩ := List.mem_map.mp hwaypoint
  exact h.solved htargets hsolve solution (List.of_mem_zip (List.fst_mem_of_mem_zipIdx hentry)).2

omit h [Scalar α] in
theorem admitted_between [Scalar α] (hnext : next.Admitted admits) (m : Moment α) :
    ∀ target ∈ next.between previous cell m, admits target.tool target.frame := by
  intro target htarget
  obtain ⟨⟨⟨waypoint, before⟩, group⟩, hentry, rfl⟩ := List.mem_map.mp htarget
  have hwaypoint := (List.of_mem_zip (List.fst_mem_of_mem_zipIdx hentry)).1
  obtain ⟨goal, external, hbetween⟩ := Step.exists_between_eq waypoint before
    (cell.armAxisCount group) m
  dsimp only
  rw [hbetween]
  exact hnext waypoint.target (List.mem_map_of_mem hwaypoint)

omit h [Scalar α] in
theorem admitted_endTargets (hnext : next.Admitted admits) (previous : Step α) :
    ∀ target ∈ next.endTargets previous, admits target.tool target.frame := by
  intro target htarget
  rw [Step.endTargets, ← List.map_uncurry_zip_eq_zipWith] at htarget
  obtain ⟨⟨waypoint, before⟩, hpair, rfl⟩ := List.mem_map.mp htarget
  have hadmitted := hnext waypoint.target (List.mem_map_of_mem (List.of_mem_zip hpair).1)
  dsimp only [Function.uncurry]
  split_ifs
  · unfold Target.withConfiguration
    split <;> exact hadmitted
  · exact hadmitted

omit h [Scalar α] in
theorem admitted_withSolutions (hnext : next.Admitted admits) (solutions : List (Solution α))
    (before : Option (Step α)) : (next.withSolutions solutions before).Admitted admits := by
  intro target htarget
  obtain ⟨waypoint, hwaypoint, rfl⟩ := List.mem_map.mp htarget
  obtain ⟨⟨⟨given, solution⟩, group⟩, hentry, rfl⟩ := List.mem_map.mp hwaypoint
  have hgiven := (List.of_mem_zip (List.fst_mem_of_mem_zipIdx hentry)).1
  exact hnext given.target (List.mem_map_of_mem hgiven)

theorem substepAt_step (next last : Step α) (targets : List (Target α))
    (solutions : List (Solution α)) :
    substepAt (r.step next) (r.step last) (targets.map r.target) (solutions.map r.solution) =
      r.step (substepAt next last targets solutions) := by
  rw [substepAt, withTargets_step]
  exact h.withSolutions_step _ solutions (some last)

theorem clockedSubstep_step {last step : Step α} (hstep : step.Sound sound)
    (hlast : last.Sound sound) (divisions : Nat) (total : α) :
    clockedSubstep other divisions (r.step last) (r.step step) total =
      r.substep (clockedSubstep cell divisions last step total) := by
  rw [clockedSubstep, h.paces_eq hstep hlast]
  rfl

/-- Substeps of recast steps are recast substeps. -/
theorem substepsFrom_eq (hnext : next.Sound sound) (hadmitted : next.Admitted admits)
    (hprevious : previous.Sound sound) (divisions : Nat) {count : Nat} :
    ∀ (number : Nat) {last : Step α} (total : α), last.Sound sound →
      substepsFrom other (r.step previous) (r.step next) divisions count number (r.step last) total =
        r.outcome (Prod.map (List.map r.substep) id)
          (substepsFrom cell previous next divisions count number last total) := by
  induction count with
  | zero => intro number last total _; rfl
  | succ count ih =>
    intro number last total hlast
    have htargets : ∀ target ∈ next.between previous cell (.ofParts number divisions),
        admits target.tool target.frame := admitted_between hadmitted _
    rw [substepsFrom_succ, substepsFrom_succ, h.between_step_eq hnext hprevious, h.joints_step,
      h.solve htargets]
    refine outcome_bind fun solutions hsolve ↦ ?_
    have hsound : (substepAt next last (next.between previous cell (.ofParts number divisions))
        solutions).Sound sound := h.sound_withSolutions htargets hsolve _ _
    dsimp only
    rw [h.substepAt_step, h.ofStep_eq, h.clockedSubstep_step hsound hlast]
    split_ifs
    · have hrest := @ih (number + 1) (clockedSubstep cell divisions last (substepAt next last
        (next.between previous cell (.ofParts number divisions)) solutions) total).step
          (clockedSubstep cell divisions last (substepAt next last (next.between previous cell
            (.ofParts number divisions)) solutions) total).step.totalTime hsound
      exact (congrArg (· >>= _) hrest).trans (outcome_bind fun result _ ↦ rfl)
    · rfl

theorem arrivedAt_step (previous next : Step α) (solutions : List (Solution α)) :
    arrivedAt (r.step previous) (r.step next) (solutions.map r.solution) =
      r.step (arrivedAt previous next solutions) :=
  h.withSolutions_step next solutions (some previous)

theorem hasRedundantArm_eq : other.hasRedundantArm = cell.hasRedundantArm := by
  rw [Cell.hasRedundantArm, h.groups, Cell.hasRedundantArm]

theorem completeTravel_eq (arrived : Step α) (divisions : Nat) (start : α)
    (warnings : List (Warning α)) (substeps : List (Substep α)) :
    completeTravel other (r.step arrived) divisions start warnings (substeps.map r.substep) =
      r.travel (completeTravel cell arrived divisions start warnings substeps) := by
  have hlast : (((substeps.map r.substep).getLast?).map Substep.step).getD (r.step arrived) =
      r.step ((substeps.getLast?.map Substep.step).getD arrived) := by
    rw [List.getLast?_map, Option.map_map]
    cases substeps.getLast? <;> rfl
  have hlimits : limitWarnings other arrived.index (substeps.map r.substep) =
      limitWarnings cell arrived.index substeps := by
    simp only [limitWarnings, h.groups, groupPaces_map]
  unfold completeTravel
  dsimp only
  rw [hlast, h.dwell_step, h.hasRedundantArm_eq, turningPoints_map]
  have hindex : (r.step arrived).index = arrived.index := rfl
  rw [hindex, hlimits]
  unfold travel
  dsimp only
  have hminTime : (substeps.map r.substep).map (fun s ↦ Scalar.maximum (s.paces.map Pace.axisTime)) =
      substeps.map fun s ↦ Scalar.maximum (s.paces.map Pace.axisTime) := List.map_map
  rw [hminTime, ← stampDeltas_map]
  simp only [groupPaces_map, Recast.step, List.zipIdx_map, List.map_map]
  split_ifs
  · rw [List.map_append, List.map_append]
    rfl
  · rw [List.map_append, List.map_append]
    rfl

theorem travel_eq (stepSize : α) (hnext : next.Admitted admits) (hprevious : previous.Sound sound)
    (start : α) : Toolpath.travel other stepSize (r.step previous) (r.step next) start =
      r.outcome r.travel (Toolpath.travel cell stepSize previous next start) := by
  have htargets := admitted_endTargets hnext previous
  unfold Toolpath.travel
  dsimp only
  rw [h.undefinedStarts_eq]
  by_cases hundefined : !(next.undefinedStarts previous).isEmpty
  · rw [if_pos hundefined, if_pos hundefined]
    rfl
  · rw [if_neg hundefined, if_neg hundefined, h.endTargets_eq, h.joints_step, h.solve htargets]
    refine outcome_bind fun solutions hsolve ↦ ?_
    have hsound : (arrivedAt previous next solutions).Sound sound :=
      h.sound_withSolutions htargets hsolve _ _
    have harrived := h.arrivedAt_step previous next solutions
    unfold arrivedAt at hsound harrived
    rw [harrived, h.ofStep_eq]
    by_cases hfaults : !(ProgramFault.ofStep (next.withSolutions solutions (some previous))).isEmpty
    · rw [if_pos hfaults, if_pos hfaults]
      rfl
    · rw [if_neg hfaults, if_neg hfaults, h.motionDivisions_eq hsound hprevious,
        h.step_endWarnings_eq hsound hprevious,
        h.substepsFrom_eq hsound (admitted_withSolutions hnext _ _) hprevious _ 1 start hprevious]
      refine outcome_bind fun ⟨substeps, faults⟩ _ ↦ ?_
      dsimp only [Prod.map, id]
      split_ifs
      · exact congrArg Except.ok (h.completeTravel_eq _ _ _ _ _)
      · rw [h.hasRedundantArm_eq, turningPoints_map, stampDeltas_map, List.getLast?_map,
          Option.map_map]
        rfl

/-- A motion without faults ends in a sound step. -/
theorem sound_travel (hnext : next.Admitted admits) {stepSize start : α} {motion : Travel α}
    (hmotion : Toolpath.travel cell stepSize previous next start = .ok motion)
    (hfaults : motion.faults = []) : motion.target.Sound sound := by
  cases travelled_of_travel hmotion with
  | undefined hundefined => exact absurd hfaults hundefined
  | unreached _ hunreached => exact absurd hfaults hunreached
  | stopped _ _ _ _ hstopped => exact absurd hfaults hstopped
  | completed hsolve _ _ _ =>
    rw [Step.sound_iff, solutions_completeTravel, ← Step.sound_iff]
    exact h.sound_withSolutions (admitted_endTargets hnext previous) hsolve _ _

end Motions

/-! #### Programs -/

section Programs

theorem journeyFrom_eq (stepSize : α) {rest : List (Step α)}
    (hrest : ∀ step ∈ rest, step.Admitted admits) :
    ∀ {previous : Step α} (total : α), previous.Sound sound →
      journeyFrom other stepSize (r.step previous) total (rest.map r.step) =
        r.outcome r.journey (journeyFrom cell stepSize previous total rest) := by
  induction rest with
  | nil => intro previous total _; rfl
  | cons next rest ih =>
    intro previous total hprevious
    rw [List.forall_mem_cons] at hrest
    rw [List.map_cons, journeyFrom, journeyFrom, h.travel_eq stepSize hrest.1 hprevious]
    refine outcome_bind fun motion hmotion ↦ ?_
    have hsame : (r.travel motion).faults = motion.faults := rfl
    rw [hsame]
    by_cases hfaults : motion.faults = []
    · have honward := ih hrest.2 motion.total (h.sound_travel hrest.1 hmotion hfaults)
      rw [if_pos (List.isEmpty_iff.mpr hfaults), if_pos (List.isEmpty_iff.mpr hfaults)]
      refine (congrArg (· >>= _) honward).trans (outcome_bind fun onward _ ↦ ?_)
      simp [Recast.journey, Recast.outcome, Recast.travel, pure, Except.pure]
    · rw [if_neg (mt List.isEmpty_iff.mp hfaults), if_neg (mt List.isEmpty_iff.mp hfaults)]
      rfl

theorem keptFirst_step (first : Step α) :
    keptFirst (r.step first) = r.step (keptFirst first) := by
  rw [keptFirst, h.dwell_step, keptFirst]
  split_ifs <;> rfl

theorem startKeyframes_step (first : Step α) :
    startKeyframes (r.step first) = (startKeyframes first).map r.step := by
  rw [startKeyframes, h.dwell_step, h.keptFirst_step, startKeyframes]
  split_ifs <;> rfl

theorem timeline_eq (stepSize : α) {prepared : PreparedProgram α}
    (hfirst : prepared.first.Sound sound)
    (hrest : ∀ step ∈ prepared.rest, step.Admitted admits) :
    Program.timeline other stepSize (r.prepared prepared) =
      r.outcome r.journey (Program.timeline cell stepSize prepared) := by
  have hkept : (keptFirst prepared.first).Sound sound := by
    unfold keptFirst
    split_ifs <;> exact hfirst
  have hsame : (r.prepared prepared).first = r.step prepared.first := rfl
  rw [timeline_eq_ite, hsame, h.ofStep_eq, h.keptFirst_step, h.startKeyframes_step,
    timeline_eq_ite]
  split_ifs
  · refine (congrArg (· >>= _) (h.journeyFrom_eq stepSize hrest _ hkept)).trans
      (outcome_bind fun onward _ ↦ ?_)
    simp [Recast.journey, Recast.outcome, Journey.after]
  · rfl

end Programs

end Recast.Faithful

end Toolpath
