import Toolpath.Proofs.Exact.Passage

/-!
What a program keeps of the targets of its author, and what is stored beside them. The passes of the
preparation and the motions are those of `Stages.keeps`.
-/

set_option autoImplicit false
set_option relaxedAutoImplicit false

namespace Toolpath

variable {α : Type}

/-- A kept target is the authored one of its group at its place, but for what a program has to
change: a Cartesian target at the start holds the axis values that it was solved to, external values
fit the group, a linear motion forces no configuration, and attributes have their new names. The
number, the group and the instructions that are stored beside a target, of the program or on the way
between two, are those of the target. -/
theorem compile_keeps_targets [Scalar α] {name : String} {cell : Cell α}
    {toolpaths : List (List (Target α))} {stepSize : α} {program : Program α}
    (h : Program.compile name cell toolpaths stepSize = .ok program) :
    program.targets ≠ [] ∧
    (∀ place kept, program.targets[place]? = some kept →
      kept.Keeps cell toolpaths (namesOf toolpaths) place ∧
      ∀ group waypoint, kept.waypoints[group]? = some waypoint →
        (place = 0 → waypoint.target.isCartesian = false) ∧
        (waypoint.target.isLinear = true → waypoint.target.configuration? = none) ∧
        waypoint.target.external.length = cell.externalCount group) ∧
    program.attributes = (distinctBy Attribute.id (authoredUses toolpaths)).map
      (Attribute.relabel (namesOf toolpaths)) ∧
    ∃ stored, StoredProgram.compile cell toolpaths stepSize = .ok stored ∧
      stored.targets.map StoredStep.step = program.targets ∧
      stored.keyframes.map StoredStep.step = program.keyframes ∧
      ∀ step ∈ stored.targets ++ stored.keyframes, step.Filed := by
  have hstored := StoredProgram.compile_eq_ofStep h
  obtain ⟨count, first, rest, solutions, prepared, journey, hstages, rfl⟩ := exists_stages_eq h
  refine ⟨hstages.targets_ne_nil, fun place kept hkept ↦ ⟨hstages.keeps hkept, ?_⟩, ?_,
    _, hstored, StoredStep.map_step_ofStep _, StoredStep.map_step_ofStep _, ?_⟩
  · intro group waypoint hwaypoint
    obtain ⟨toolpath, authored, _, _, htarget⟩ :=
      (hstages.keeps hkept).target group waypoint hwaypoint
    refine ⟨?_, ?_, hstages.length_external hkept hwaypoint⟩
    · rintro rfl
      rw [htarget]
      exact cell.isCartesian_keptTarget_zero group authored waypoint.solution
    · rw [htarget]
      exact cell.configuration?_keptTarget group place authored waypoint.solution
  · rw [hstages.prepares.attributes, nameAttributes, hstages.listAttributes_readied]
    rfl
  · rw [← List.map_append]
    exact List.forall_mem_map.mpr fun step _ ↦ StoredStep.filed_ofStep step

/-- Drills and halts. -/
def boring : Command ℝ :=
  .group ⟨.authored 1, ""⟩ false
    [.single ⟨⟨.authored 2, "Drill"⟩, true, .custom []⟩, .single ⟨⟨.authored 3, ""⟩, false, .stop⟩]

/-- The first arm comes from a pose with too few external values, then forces a configuration on a
straight line. -/
noncomputable def opening : List (List (Target ℝ)) :=
  workshopTargets.map fun target ↦
    [{ target with command := some boring }, target.withConfiguration (some ⟨0⟩)]

theorem exists_compile_opening :
    ∃ program, Program.compile "Opening" workshop opening 1 = .ok program := by
  have hsize : isStepSize (1 : ℝ) = true := by simp [isStepSize, Exact.isFinite_eq_true]
  have hlength : toolpathLength opening = .ok 2 := rfl
  have hcells : opening.length = workshop.groups.length := rfl
  obtain ⟨solutions, hsolve⟩ := exists_solve_workshop none
  refine exists_compile "Opening" hcells hlength hsize fun step hstep ↦ ?_
  refine Cell.Placeable.congr ?_ (Cell.placeable_of_solve hsolve)
  rcases List.mem_pair.mp hstep with rfl | rfl <;> rfl

/-- The start of the first arm is held in axis values, and the straight motion of the slide does not
force the configuration of its author. -/
theorem compile_keeps_opening : (∃ program, Program.compile "Opening" workshop opening 1 =
      .ok program ∧
    ∃ (start : Step ℝ) (first second : Waypoint ℝ), program.targets[0]? = some start ∧
      start.waypoints[0]? = some first ∧ first.target.isCartesian = false ∧
      first.target.external.length = 2 ∧
      start.waypoints[1]? = some second ∧ second.target.goal = .joints [1] ∧
      second.target.external = [] ∧
      ∃ (stored : StoredProgram ℝ) (entry : StoredTarget ℝ),
        StoredProgram.compile workshop opening 1 = .ok stored ∧
        (stored.targets[0]?.bind (·.entries[1]?)) = some entry ∧ entry.index = 0 ∧
        entry.group = 1 ∧ entry.instructions.length = 2) ∧
    ((passage 4)[0]?.bind (·[1]?)).bind Target.configuration? = some ⟨5⟩ ∧
    ∃ (program : Program ℝ) (kept : Step ℝ) (straight : Waypoint ℝ),
      Program.compile "Passage" (slideCell 4) (passage 4) 1 = .ok program ∧
      program.targets[1]? = some kept ∧ kept.waypoints[0]? = some straight ∧
      straight.target.isLinear = true ∧ straight.target.configuration? = none := by
  refine ⟨?_, rfl, ?_⟩
  · obtain ⟨program, hprogram⟩ := exists_compile_opening
    obtain ⟨hne, hkept, _, stored, hstored, htargets, _, hfiled⟩ := compile_keeps_targets hprogram
    obtain ⟨start, hstart⟩ : ∃ start, stored.targets[0]? = some start := by
      rw [← htargets, ne_eq, List.map_eq_nil_iff] at hne
      exact ⟨_, List.getElem?_eq_getElem (List.length_pos_iff.mpr hne)⟩
    have hplain : program.targets[0]? = some start.step := by
      rw [← htargets, List.getElem?_map, hstart, Option.map_some]
    have hwaypoints : start.step.waypoints = start.entries.map StoredTarget.toWaypoint := rfl
    obtain ⟨hkeeps, hshape⟩ := hkept 0 _ hplain
    have hgroups : start.entries.length = 2 := by
      rw [← List.length_map StoredTarget.toWaypoint, ← hwaypoints, hkeeps.groups]
      rfl
    obtain ⟨first, second, hentries⟩ := List.length_eq_two.mp hgroups
    rw [hentries] at hwaypoints
    have hfirst : start.step.waypoints[0]? = some first.toWaypoint := by rw [hwaypoints]; rfl
    have hsecond : start.step.waypoints[1]? = some second.toWaypoint := by rw [hwaypoints]; rfl
    obtain ⟨hjoints, _, hexternal⟩ := hshape 0 _ hfirst
    obtain ⟨toolpath, authored, htoolpath, hauthored, htarget⟩ := hkeeps.target 1 _ hsecond
    obtain rfl := Option.some.inj htoolpath
    obtain rfl := Option.some.inj hauthored
    rw [Cell.keptTarget, if_neg fun hcartesian ↦ Bool.false_ne_true hcartesian.2] at htarget
    have hbeside := hfiled start (List.mem_append_left _ (List.mem_of_getElem? hstart))
    have hentry : start.entries[1]? = some second := by rw [hentries]; rfl
    have hmem := List.mem_of_getElem? hentry
    refine ⟨program, hprogram, _, _, _, hplain, hfirst, hjoints rfl, hexternal, hsecond, ?_, ?_,
      stored, second, hstored, by rw [hstart]; exact hentry, ?_, hbeside.group 1 second hentry, ?_⟩
    · rw [htarget]; rfl
    · rw [htarget]; rfl
    · exact (hbeside.index second hmem).trans hkeeps.index
    · rw [hbeside.instructions second hmem, htarget]; rfl
  · obtain ⟨program, _, kept, hpassage, _⟩ := exists_passage_four
    obtain ⟨_, hkept, _⟩ := compile_keeps_targets hpassage.compiled
    obtain ⟨hkeeps, hshape⟩ := hkept 1 kept hpassage.stop
    obtain ⟨straight, hwaypoints⟩ : ∃ straight, kept.waypoints = [straight] :=
      List.length_eq_one_iff.mp hkeeps.groups
    have hstraight : kept.waypoints[0]? = some straight := by rw [hwaypoints]; rfl
    have hlinear : straight.target.isLinear = true := by
      refine hpassage.isLinear straight.target (List.mem_map_of_mem ?_)
      exact hwaypoints ▸ List.mem_singleton_self straight
    exact ⟨program, kept, straight, hpassage.compiled, hpassage.stop, hstraight, hlinear,
      (hshape 0 straight hstraight).2.1 hlinear⟩

end Toolpath
