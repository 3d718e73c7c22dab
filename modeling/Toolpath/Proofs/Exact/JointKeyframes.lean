import Toolpath.Proofs.Exact.JointMotion
import Toolpath.Proofs.Shape

/-!
The keyframes at the start of a program of joint targets. The preparation leaves the axis values of
a joint target as they are (`Stages.asks_prepared`), and the first motion has no keyframes but at
its end; so the program goes from a keyframe in the values of the first target to one in those of
the second (`exists_first_sweep`).
-/

set_option autoImplicit false
set_option relaxedAutoImplicit false

namespace Toolpath

theorem Target.Asks.keptTarget {cell : Cell ℝ} {index : Nat} {group : Group ℝ} {authored : Target ℝ}
    {values : List ℝ} (h : authored.Asks group values) (hgroup : cell.groups[index]? = some group)
    (place : Nat) (solution : Solution ℝ) :
    (cell.keptTarget index place authored solution).Asks group values := by
  have hjoint : authored.isCartesian = false := by rw [Target.isCartesian, h.goal]
  rw [Cell.keptTarget, if_neg fun hstart ↦ Bool.false_ne_true (hjoint.symm.trans hstart.2), h.goal]
  exact ⟨rfl, (h.fitExternal hgroup).external, h.admits⟩

section Start

variable {cell : Cell ℝ} {toolpaths : List (List (Target ℝ))} {stepSize : ℝ} {count : Nat}
  {first : Step ℝ} {rest : List (Step ℝ)} {solutions : List (Solution ℝ)}
  {prepared : PreparedProgram ℝ} {journey : Journey ℝ}
  (h : Stages cell toolpaths stepSize count first rest solutions prepared journey)
  {index : Nat} {group : Group ℝ} {toolpath : List (Target ℝ)} {authored : Target ℝ}
  {values : List ℝ} (hgroup : cell.groups[index]? = some group)
  (htoolpath : toolpaths[index]? = some toolpath)

include h hgroup htoolpath

/-- A prepared target asks for the axis values that the authored one asks for. -/
theorem Stages.asks_prepared {place : Nat} {named : Step ℝ}
    (hnamed : (prepared.first :: prepared.rest)[place]? = some named)
    (hauthored : toolpath[place]? = some authored) (hasks : authored.Asks group values) :
    ∃ target, named.targets[index]? = some target ∧ target.Asks group values := by
  obtain ⟨_, _, _, hsolution⟩ := Cell.exists_solve_of_group h.prepares.solve hgroup
  obtain ⟨hindex, _⟩ := List.getElem?_eq_some_iff.mp hgroup
  have hcount := h.length_waypoints_prepared named (List.mem_of_getElem? hnamed)
  have htarget := List.getElem?_eq_getElem
    (((Step.length_targets named).trans hcount).symm ▸ hindex : index < named.targets.length)
  obtain ⟨held, given, hheld, hgiven, hpassed⟩ := h.exists_passed hnamed htarget
  obtain rfl := Option.some.inj (htoolpath.symm.trans hheld)
  obtain rfl := Option.some.inj (hauthored.symm.trans hgiven)
  refine ⟨_, htarget, ?_⟩
  rw [hpassed _ fun _ ↦ hsolution]
  exact (hasks.keptTarget hgroup place _).relabel _

/-- The first target is solved to the axis values that it asks for. -/
theorem Stages.joints_first (hauthored : toolpath[0]? = some authored)
    (hasks : authored.Asks group values) :
    ∃ solution, prepared.first.solutions[index]? = some solution ∧ solution.joints = values := by
  obtain ⟨fitted, _, hfitted, hsolution⟩ := Cell.exists_solve_of_group h.prepares.solve hgroup
  refine ⟨_, ?_, (Cell.solve_asked h.prepares.solve hgroup hfitted hsolution ?_).1⟩
  · rw [h.prepares.solutions_first (h.length_waypoints first List.mem_cons_self), hsolution]
  · rw [Step.getElem?_targets_mapTargets, Option.map_eq_some_iff] at hfitted
    obtain ⟨given, hgiven, rfl⟩ := hfitted
    obtain ⟨held, hheld, hplace⟩ := h.exists_authored List.getElem?_cons_zero hgiven
    obtain rfl := Option.some.inj (htoolpath.symm.trans hheld)
    obtain rfl := Option.some.inj (hauthored.symm.trans hplace)
    exact hasks.fitExternal hgroup

end Start

/-- The group stands on the axis values. -/
def Step.StandsOn (step : Step ℝ) (index : Nat) (values : List ℝ) : Prop :=
  ∃ solution, step.solutions[index]? = some solution ∧ solution.joints = values

/-- A program of joint targets goes from a keyframe on the axis values of its first targets to one
on those of the second, with no group on a straight line. -/
theorem exists_first_sweep {name : String} {cell : Cell ℝ} {toolpaths : List (List (Target ℝ))}
    {stepSize : ℝ} {program : Program ℝ}
    (hcompile : Program.compile name cell toolpaths stepSize = .ok program)
    (htargets : ∀ index toolpath, toolpaths[index]? = some toolpath →
      ∀ target ∈ toolpath, cell.AttainableBy index target)
    {count : Nat} (hcount : toolpathLength toolpaths = .ok count) (hmany : 2 ≤ count) :
    ∃ place previous next, program.keyframes[place]? = some previous ∧
      program.keyframes[place + 1]? = some next ∧
      (∀ target ∈ next.targets, target.isLinear = false) ∧
      ∀ index group toolpath start stop before after, cell.groups[index]? = some group →
        toolpaths[index]? = some toolpath → toolpath[0]? = some start → toolpath[1]? = some stop →
        Target.Asks start group before → Target.Asks stop group after →
          previous.StandsOn index before ∧ next.StandsOn index after := by
  have hnone := compile_attainable htargets hcompile
  obtain ⟨length, first, rest, solutions, prepared, journey, hstages, rfl⟩ :=
    exists_stages_eq hcompile
  obtain rfl := Except.ok.inj (hcount.symm.trans hstages.length)
  obtain ⟨_, named, motion, next, later, hnamed, htravelled, hnext, hkeyframes⟩ :=
    hstages.exists_first_motion hmany hnone
  obtain ⟨initial, hinitial⟩ :=
    List.getLast?_eq_some_iff.mp (getLast?_startKeyframes prepared.first)
  have hprepared := hstages.eachTarget cell.survivesPreparation_attainableBy htargets
  have hattainable := hprepared named (List.mem_cons_of_mem _ (List.mem_of_getElem? hnamed))
  have hwaypoints := hstages.length_waypoints_rest hnamed
  have hstands : (keptFirst prepared.first).Stands cell := by
    have hauthored := eachTarget_of_mem_stepsOf hcount htargets
    rw [hstages.steps, List.forall_mem_cons] at hauthored
    unfold Step.Stands
    rw [solutions_keptFirst]
    exact (hstages.stands_first hauthored.1).2
  refine ⟨initial.length, keptFirst prepared.first, next, ?_, ?_,
    htravelled.isLinear_keyframe hattainable hstands hwaypoints hnext, ?_⟩
  · show journey.keyframes[_]? = _
    rw [hkeyframes, hinitial]
    simp
  · show journey.keyframes[_]? = _
    rw [hkeyframes, hinitial]
    simp
  · intro index group toolpath start stop before after hgroup htoolpath hstart hstop hbefore hafter
    constructor
    · unfold Step.StandsOn
      rw [solutions_keptFirst]
      exact hstages.joints_first hgroup htoolpath hstart hbefore
    · obtain ⟨target, htarget, hasks⟩ := hstages.asks_prepared hgroup htoolpath
        (List.getElem?_cons_succ.trans hnamed) hstop hafter
      obtain ⟨_, _, _, _, hsolution⟩ :=
        htravelled.asks_keyframe hattainable hstands hwaypoints hnext hgroup htarget hasks
      exact ⟨_, hsolution⟩

end Toolpath
