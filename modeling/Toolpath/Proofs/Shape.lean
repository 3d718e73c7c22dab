import Toolpath.Proofs.Anchoring
import Toolpath.Proofs.Attributes
import Toolpath.Proofs.Malformed
import Toolpath.Proofs.Storing

/-!
What a program makes of the targets of its author. `Cell.keptTarget` is a target as it is kept but
for names: a Cartesian start gives way to the axis values that it was solved to, every other target
has as many external values as its group has external axes, and a linear one forces no
configuration. The passes of the preparation come to that and to new names, whatever the order of
the groups (`Stages.exists_passed`), and no motion changes the targets that are kept
(`Stages.keeps`).
-/

set_option autoImplicit false
set_option relaxedAutoImplicit false

namespace Toolpath

variable {α : Type}

/-- The goal without the configuration that a linear motion does not heed. -/
def Goal.heeded : Goal α → Goal α
  | .cartesian pose _ .linear => .cartesian pose none .linear
  | goal => goal

/-- An authored target as it is kept with its solution, but for names. -/
def Cell.keptTarget [Scalar α] (cell : Cell α) (group place : Nat) (authored : Target α)
    (solution : Solution α) : Target α :=
  if place = 0 ∧ authored.isCartesian then
    { authored with
      goal := .joints (solution.joints.take (cell.armAxisCount group))
      external := solution.joints.drop (cell.armAxisCount group) }
  else
    { authored with
      goal := authored.goal.heeded
      external := resize (cell.externalCount group) authored.external }

/-- The step is what the author has asked for at its place, changed in nothing but what a program
has to change. -/
structure Step.Keeps [Scalar α] (cell : Cell α) (toolpaths : List (List (Target α)))
    (change : Relabelling) (place : Nat) (kept : Step α) : Prop where
  index : kept.index = place
  groups : kept.waypoints.length = toolpaths.length
  target (group : Nat) (waypoint : Waypoint α) (h : kept.waypoints[group]? = some waypoint) :
    ∃ toolpath authored, toolpaths[group]? = some toolpath ∧ toolpath[place]? = some authored ∧
      waypoint.target =
        (cell.keptTarget group place authored waypoint.solution).relabel change

/-- What is stored beside the targets of a step. -/
structure StoredStep.Filed (stored : StoredStep α) : Prop where
  index : ∀ entry ∈ stored.entries, entry.index = stored.index
  group : ∀ (place : Nat) (entry : StoredTarget α), stored.entries[place]? = some entry →
    entry.group = place
  instructions : ∀ entry ∈ stored.entries, entry.instructions = entry.target.instructions

theorem StoredStep.filed_ofStep (step : Step α) : (ofStep step).Filed where
  index := List.forall_mem_map.mpr fun _ _ ↦ rfl
  group place entry hentry := by
    rw [getElem?_ofStep] at hentry
    obtain ⟨waypoint, _, rfl⟩ := Option.map_eq_some_iff.mp hentry
    rfl
  instructions := List.forall_mem_map.mpr fun _ _ ↦ rfl

/-! ### One target -/

theorem cleared_eq (target : Target α) :
    (if hasIdleConfiguration target then target.withConfiguration none else target) =
      { target with goal := target.goal.heeded } := by
  obtain ⟨goal, tool, frame, speed, zone, command, external⟩ := target
  rcases goal with ⟨pose, configuration, motion⟩ | values
  · cases motion <;> cases configuration <;> rfl
  · rfl

namespace Cell

variable [Scalar α] (cell : Cell α) (group place : Nat) (authored : Target α)
  (solution : Solution α)

/-- The passes of the preparation one after the other. -/
theorem keptTarget_eq : cell.keptTarget group place authored solution =
    let fitted := fitExternal cell group authored
    let start := if place = 0 then anchorTarget cell group fitted solution else fitted
    if hasIdleConfiguration start then start.withConfiguration none else start := by
  have hsame : (fitExternal cell group authored).isCartesian = authored.isCartesian := rfl
  dsimp only
  rw [cleared_eq, keptTarget]
  by_cases hplace : place = 0
  · by_cases hcartesian : authored.isCartesian = true
    · rw [if_pos ⟨hplace, hcartesian⟩, if_pos hplace, anchorTarget, hsame,
        if_pos hcartesian]
      rfl
    · rw [if_neg fun h ↦ hcartesian h.2, if_pos hplace, anchorTarget, hsame,
        if_neg hcartesian]
      rfl
  · rw [if_neg fun h ↦ hplace h.1, if_neg hplace]
    rfl

theorem isCartesian_keptTarget_zero :
    (cell.keptTarget group 0 authored solution).isCartesian = false := by
  by_cases hcartesian : authored.isCartesian = true
  · rw [keptTarget, if_pos ⟨rfl, hcartesian⟩]
    rfl
  · rw [keptTarget, if_neg fun h ↦ hcartesian h.2]
    unfold Target.isCartesian at hcartesian ⊢
    cases hgoal : authored.goal with
    | joints values => rfl
    | cartesian pose configuration motion => exact absurd (by rw [hgoal]) hcartesian

theorem configuration?_keptTarget
    (h : (cell.keptTarget group place authored solution).isLinear = true) :
    (cell.keptTarget group place authored solution).configuration? = none := by
  rw [keptTarget] at h ⊢
  split_ifs at h ⊢
  · rfl
  · unfold Target.isLinear at h
    unfold Target.configuration?
    cases hgoal : authored.goal with
    | joints values => rfl
    | cartesian pose configuration motion => cases motion <;> simp_all [Goal.heeded]

end Cell

/-! ### The prepared targets -/

/-- The new names of a program. -/
def namesOf (toolpaths : List (List (Target α))) : Relabelling :=
  (Naming.ofListing (distinctBy Attribute.id (authoredUses toolpaths))).relabelling

namespace Stages

variable [Scalar α] {cell : Cell α} {toolpaths : List (List (Target α))} {stepSize : α}
  {count : Nat} {first : Step α} {rest : List (Step α)} {solutions : List (Solution α)}
  {prepared : PreparedProgram α} {journey : Journey α}
  (h : Stages cell toolpaths stepSize count first rest solutions prepared journey)

include h

theorem listAttributes_readied : listAttributes (readied cell first rest solutions) =
    distinctBy Attribute.id (authoredUses toolpaths) := by
  have hcount := length_waypoints_of_solve h.prepares.solve
  rw [Step.length_waypoints_mapTargets] at hcount
  rw [← flatMap_uses_stepsOf h.length, h.steps, ← flatMap_uses_readied hcount]
  rfl

theorem exists_authored {place : Nat} {given : Step α}
    (hgiven : (first :: rest)[place]? = some given) {group : Nat} {target : Target α}
    (htarget : given.targets[group]? = some target) :
    ∃ toolpath, toolpaths[group]? = some toolpath ∧ toolpath[place]? = some target := by
  rw [← h.steps, stepsOf, List.getElem?_map, Option.map_eq_some_iff] at hgiven
  obtain ⟨index, hindex, rfl⟩ := hgiven
  obtain ⟨hlt, rfl⟩ := List.getElem?_eq_some_iff.mp hindex
  rw [List.length_range] at hlt
  rw [List.getElem_range, Step.targets_ofTargets] at htarget
  have hentry := congrArg (·[group]?) (map_some_targetsAt h.length hlt)
  rw [List.getElem?_map, List.getElem?_map, targetsAt, htarget, Option.map_some] at hentry
  exact Option.map_eq_some_iff.mp hentry.symm

/-- A prepared target is an authored one after all passes. -/
theorem exists_passed {place : Nat} {named : Step α}
    (hnamed : (prepared.first :: prepared.rest)[place]? = some named) {group : Nat}
    {target : Target α} (htarget : named.targets[group]? = some target) :
    ∃ toolpath authored, toolpaths[group]? = some toolpath ∧ toolpath[place]? = some authored ∧
      ∀ solution, (place = 0 → solutions[group]? = some solution) →
        target = (cell.keptTarget group place authored solution).relabel (namesOf toolpaths) := by
  rw [h.prepares.steps, nameAttributes, h.listAttributes_readied, readied, clearConfigurations,
    List.map_map, List.getElem?_map, Option.map_eq_some_iff] at hnamed
  obtain ⟨start, hstart, rfl⟩ := hnamed
  rw [Function.comp_apply, Step.getElem?_targets_mapTargets, Step.getElem?_targets_mapTargets,
    Option.map_map, Option.map_eq_some_iff] at htarget
  obtain ⟨ready, hready, rfl⟩ := htarget
  cases place with
  | zero =>
    obtain rfl := Option.some.inj hstart
    rw [targets_anchored (length_waypoints_of_solve h.prepares.solve)] at hready
    obtain ⟨fitted, found, hfitted, hfound, rfl⟩ := Cell.exists_of_getElem?_anchoredTargets hready
    rw [Step.getElem?_targets_mapTargets, Option.map_eq_some_iff] at hfitted
    obtain ⟨authored, hauthored, rfl⟩ := hfitted
    obtain ⟨toolpath, htoolpath, hplace⟩ := h.exists_authored List.getElem?_cons_zero hauthored
    refine ⟨toolpath, authored, htoolpath, hplace, fun solution hsolution ↦ ?_⟩
    obtain rfl := Option.some.inj (hfound.symm.trans (hsolution rfl))
    rw [Cell.keptTarget_eq, Function.comp_apply]
    rfl
  | succ place =>
    rw [List.getElem?_cons_succ, List.getElem?_map, Option.map_eq_some_iff] at hstart
    obtain ⟨given, hgiven, rfl⟩ := hstart
    rw [Step.getElem?_targets_mapTargets, Option.map_eq_some_iff] at hready
    obtain ⟨authored, hauthored, rfl⟩ := hready
    obtain ⟨toolpath, htoolpath, hplace⟩ := h.exists_authored
      (List.getElem?_cons_succ.trans hgiven) hauthored
    refine ⟨toolpath, authored, htoolpath, hplace, fun solution _ ↦ ?_⟩
    rw [Cell.keptTarget_eq, Function.comp_apply]
    rfl

/-- The first target is kept with the solutions that it was anchored by. -/
theorem solutions_start {kept : Step α} (hkept : journey.targets[0]? = some kept) :
    kept.solutions = solutions := by
  have hsolved := h.prepares.solutions_first (h.length_waypoints first List.mem_cons_self)
  rcases timeline_motions h.timeline with ⟨_, rfl⟩ | ⟨_, motions, _, rfl⟩
  · exact Option.some.inj hkept ▸ hsolved
  · exact Option.some.inj hkept ▸ (solutions_keptFirst prepared.first).trans hsolved

theorem keeps {place : Nat} {kept : Step α} (hkept : journey.targets[place]? = some kept) :
    kept.Keeps cell toolpaths (namesOf toolpaths) place := by
  obtain ⟨named, hnamed, htask⟩ : ∃ named,
      (prepared.first :: prepared.rest)[place]? = some named ∧ named.task = kept.task := by
    obtain ⟨tail, htail⟩ := h.tasks_prefix
    obtain ⟨hlt, _⟩ := List.getElem?_eq_some_iff.mp hkept
    have hentry := congrArg (·[place]?) htail
    rw [List.getElem?_append_left (by simpa using hlt), List.getElem?_map, hkept, List.getElem?_map,
      Option.map_some] at hentry
    exact Option.map_eq_some_iff.mp hentry.symm
  have htargets : named.targets = kept.targets := (Prod.mk.inj htask).2
  refine ⟨h.index_of_getElem? hkept, ?_, fun group waypoint hwaypoint ↦ ?_⟩
  · rw [← Step.length_targets, ← htargets, Step.length_targets,
      h.length_waypoints_prepared named (List.mem_of_getElem? hnamed), h.groups]
  · obtain ⟨toolpath, authored, htoolpath, hauthored, htarget⟩ := h.exists_passed hnamed
      (htargets ▸ Step.getElem?_targets hwaypoint)
    refine ⟨toolpath, authored, htoolpath, hauthored, htarget _ ?_⟩
    rintro rfl
    exact h.solutions_start hkept ▸ Step.getElem?_solutions hwaypoint

/-- Every kept target has as many external values as its group has external axes. -/
theorem length_external {place : Nat} {kept : Step α} (hkept : journey.targets[place]? = some kept)
    {group : Nat} {waypoint : Waypoint α} (hwaypoint : kept.waypoints[group]? = some waypoint) :
    waypoint.target.external.length = cell.externalCount group := by
  obtain ⟨toolpath, authored, _, _, htarget⟩ := (h.keeps hkept).target group waypoint hwaypoint
  have hlengths : waypoint.target.external.length =
      (cell.keptTarget group place authored waypoint.solution).external.length := by
    rw [htarget]
    rfl
  rw [hlengths, Cell.keptTarget]
  split_ifs with hstart
  · -- The first solution was found from nowhere, so that the arm has all of its axis values.
    obtain ⟨rfl, _⟩ := hstart
    have hsolution := Step.getElem?_solutions hwaypoint
    rw [h.solutions_start hkept] at hsolution
    obtain ⟨hcount, hframes⟩ := Cell.checked_of_solve h.prepares.solve
    obtain ⟨asked, target, coupled, hgroup, _, hsolved, _⟩ :=
      Cell.exists_solve_of_getElem? hcount hframes h.prepares.solve hsolution
    dsimp only
    rw [← hsolved, Cell.armAxisCount_of_getElem? hgroup, Cell.externalCount_of_getElem? hgroup,
      Option.bind_none, Group.drop_joints_solve_start, Group.length_joints_solveMechanisms]
    rfl
  · exact length_resize _ _

theorem targets_ne_nil : journey.targets ≠ [] := by
  rcases timeline_motions h.timeline with ⟨_, rfl⟩ | ⟨_, motions, _, rfl⟩
  all_goals exact List.cons_ne_nil _ _

end Stages

end Toolpath
