import Toolpath.Proofs.Compilation

/-!
What the preparation of a program keeps of its targets. `Step.EachTarget` is a property of the
targets of a step that may depend on the group. A property that survives what is done to one target
holds of every prepared step where it holds of every authored target (`Stages.eachTarget`).
-/

set_option autoImplicit false
set_option relaxedAutoImplicit false

namespace Toolpath

variable {α : Type}

/-- The property holds of the target of every group. -/
def Step.EachTarget (P : Nat → Target α → Prop) (step : Step α) : Prop :=
  ∀ group target, step.targets[group]? = some target → P group target

section Steps

variable {P : Nat → Target α → Prop} {step : Step α}

theorem Step.EachTarget.mapTargets (h : step.EachTarget P) {change : Nat → Target α → Target α}
    (hchange : ∀ group target, P group target → P group (change group target)) :
    (step.mapTargets change).EachTarget P := by
  intro group target htarget
  rw [getElem?_targets_mapTargets, Option.map_eq_some_iff] at htarget
  obtain ⟨given, hgiven, rfl⟩ := htarget
  exact hchange group given (h group given hgiven)

variable [Scalar α]

/-- Every group of an authored step has a target of its toolpath. -/
theorem eachTarget_of_mem_stepsOf {toolpaths : List (List (Target α))} {count : Nat}
    (hlength : toolpathLength toolpaths = .ok count)
    (h : ∀ (group : Nat) (toolpath : List (Target α)), toolpaths[group]? = some toolpath →
      ∀ target ∈ toolpath, P group target) :
    ∀ step ∈ stepsOf toolpaths count, step.EachTarget P := by
  intro step hstep group target htarget
  obtain ⟨index, hindex, rfl⟩ := List.mem_map.mp hstep
  have hentries : (toolpaths.filterMap (·[index]?)).map some = toolpaths.map (·[index]?) := by
    refine map_some_filterMap fun toolpath htoolpath ↦ ?_
    rw [List.getElem?_eq_getElem, Option.isSome_some]
    rw [length_of_toolpathLength hlength toolpath htoolpath]
    exact List.mem_range.mp hindex
  have hentry := congrArg (·[group]?) hentries
  rw [Step.targets_ofTargets] at htarget
  simp only [List.getElem?_map, htarget, Option.map_some] at hentry
  obtain ⟨toolpath, htoolpath, hgiven⟩ := Option.map_eq_some_iff.mp hentry.symm
  exact h group toolpath htoolpath target (List.mem_of_getElem? hgiven)

omit [Scalar α] in
/-- The first step is left as it is but for its Cartesian targets. -/
theorem Step.EachTarget.anchored {cell : Cell α} {solutions : List (Solution α)}
    (h : step.EachTarget P) (hcount : solutions.length = step.waypoints.length)
    (hanchor : ∀ group target solution, P group target →
      P group (anchorTarget cell group target solution)) :
    (Toolpath.anchored cell step solutions).EachTarget P := by
  intro group target htarget
  rw [targets_anchored hcount] at htarget
  obtain ⟨given, solution, hgiven, _, rfl⟩ := Cell.exists_of_getElem?_anchoredTargets htarget
  exact hanchor group given solution (h group given hgiven)

end Steps

variable [Scalar α]

/-- What the preparation does to a target, it leaves every target with the property. -/
structure SurvivesPreparation (cell : Cell α) (P : Nat → Target α → Prop) : Prop where
  external : ∀ group target, P group target → P group (fitExternal cell group target)
  configuration : ∀ group target, P group target → P group (target.withConfiguration none)
  relabel : ∀ (naming : Naming) group target, P group target →
    P group (target.relabel naming.relabelling)
  anchor : ∀ group target solution, P group target →
    P group (anchorTarget cell group target solution)

theorem Stages.eachTarget {cell : Cell α} {toolpaths : List (List (Target α))} {stepSize : α}
    {count : Nat} {first : Step α} {rest : List (Step α)} {solutions : List (Solution α)}
    {prepared : PreparedProgram α} {journey : Journey α} {P : Nat → Target α → Prop}
    (h : Stages cell toolpaths stepSize count first rest solutions prepared journey)
    (hsurvives : SurvivesPreparation cell P)
    (htargets : ∀ (group : Nat) (toolpath : List (Target α)), toolpaths[group]? = some toolpath →
      ∀ target ∈ toolpath, P group target) :
    ∀ step ∈ prepared.first :: prepared.rest, step.EachTarget P := by
  have hauthored := eachTarget_of_mem_stepsOf h.length htargets
  rw [h.steps, List.forall_mem_cons] at hauthored
  have hclear : ∀ group target, P group target → P group
      (if hasIdleConfiguration target then target.withConfiguration none else target) := by
    intro group target htarget
    split_ifs
    · exact hsurvives.configuration group target htarget
    · exact htarget
  have hsolutions : solutions.length =
      (first.mapTargets (fitExternal cell)).waypoints.length := by
    rw [Step.length_waypoints_mapTargets, h.length_waypoints first List.mem_cons_self]
    exact (Cell.length_of_solve h.prepares.solve).2
  intro step hstep
  rw [h.prepares.steps] at hstep
  simp only [nameAttributes, readied, clearConfigurations, List.map_cons, List.map_map,
    List.mem_cons, List.mem_map] at hstep
  rcases hstep with rfl | ⟨given, hgiven, rfl⟩
  · have hfitted := hauthored.1.mapTargets hsurvives.external
    have hanchored := hfitted.anchored hsolutions hsurvives.anchor
    exact (hanchored.mapTargets hclear).mapTargets (hsurvives.relabel _)
  · exact (((hauthored.2 given hgiven).mapTargets hsurvives.external).mapTargets hclear).mapTargets
      (hsurvives.relabel _)

/-- A kept target is a prepared one, solved. -/
theorem Stages.eachTarget_targets {cell : Cell α} {toolpaths : List (List (Target α))}
    {stepSize : α} {count : Nat} {first : Step α} {rest : List (Step α)}
    {solutions : List (Solution α)} {prepared : PreparedProgram α} {journey : Journey α}
    {P : Nat → Target α → Prop}
    (h : Stages cell toolpaths stepSize count first rest solutions prepared journey)
    (hsurvives : SurvivesPreparation cell P)
    (htargets : ∀ (group : Nat) (toolpath : List (Target α)), toolpaths[group]? = some toolpath →
      ∀ target ∈ toolpath, P group target) :
    ∀ step ∈ journey.targets, step.EachTarget P := by
  intro step hstep
  obtain ⟨given, hgiven, htask⟩ :=
    List.mem_map.mp (h.tasks_prefix.subset (List.mem_map_of_mem hstep))
  rw [Step.EachTarget, ← (Prod.mk.inj htask).2]
  exact h.eachTarget hsurvives htargets given hgiven

end Toolpath
