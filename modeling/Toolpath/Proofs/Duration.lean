import Toolpath.Proofs.Exact.JointMotion

/-!
The duration of a program against the end of its timeline. `lastTime` is the time at which a row of
steps ends. A motion that runs to its end, or that is not begun, leaves the running time at its last
keyframe (`Travelled.lastTime_cases`); a motion that is given up at a substep leaves it at the last
substep that was solved, which no keyframe tells (`GivenUp`). `compile_duration` is the same for a
program, of which only the last motion can be given up.
-/

set_option autoImplicit false
set_option relaxedAutoImplicit false

namespace Toolpath

variable {α : Type} [Scalar α]

section Rows

omit [Scalar α]

/-- When the row of steps ends, which starts at the given time. -/
def lastTime (start : α) (steps : List (Step α)) : α :=
  (steps.getLast?.map Step.totalTime).getD start

@[simp] theorem lastTime_nil (start : α) : lastTime start [] = start := rfl

@[simp] theorem lastTime_concat (start : α) (steps : List (Step α)) (last : Step α) :
    lastTime start (steps ++ [last]) = last.totalTime := by
  rw [lastTime, List.getLast?_concat]
  rfl

theorem lastTime_append (start : α) (first second : List (Step α)) :
    lastTime start (first ++ second) = lastTime (lastTime start first) second := by
  rcases List.eq_nil_or_concat second with rfl | ⟨initial, last, rfl⟩
  · rw [List.append_nil, lastTime_nil]
  · rw [List.concat_eq_append, ← List.append_assoc, lastTime_concat, lastTime_concat]

end Rows

/-- Stamping moves no step. -/
theorem lastTime_stampDeltas (start : α) (steps : List (Step α)) :
    lastTime start (stampDeltas start steps) = lastTime start steps := by
  rw [lastTime, ← List.getLast?_map, map_stampDeltas (fun _ _ ↦ rfl), List.getLast?_map, lastTime]

/-! ### One motion -/

/-- The target can be reached, but the motion there stops at a substep with faults, after the given
substeps. -/
structure GivenUp (cell : Cell α) (stepSize : α) (previous : Step α) (substeps : List (Substep α))
    (motion : Travel α) : Prop where
  reached : motion.target.faults = []
  faults : motion.faults ≠ []
  solved : substepsFrom cell previous motion.target
    (motion.target.motionDivisions previous stepSize)
    (motion.target.motionDivisions previous stepSize) 1 previous previous.totalTime =
      .ok (substeps, motion.faults)
  keyframes : motion.keyframes =
    stampDeltas previous.totalTime (turningPoints cell.hasRedundantArm substeps)
  total : motion.total = lastTime previous.totalTime (substeps.map Substep.step)

/-- After a motion the running time is that of its last keyframe, unless it was given up. -/
theorem Travelled.lastTime_cases {cell : Cell α} {stepSize : α} {previous next : Step α}
    {motion : Travel α} (h : Travelled cell stepSize previous next previous.totalTime motion) :
    lastTime previous.totalTime motion.keyframes = motion.total ∨
      ∃ substeps, GivenUp cell stepSize previous substeps motion := by
  by_cases hfaults : motion.faults = []
  · left
    obtain ⟨solutions, divisions, initial, final, _, _, _, rfl⟩ := h.exists_completed hfaults
    rw [keyframes_completeTravel, lastTime_stampDeltas, dwelling, completeTravel,
      List.getLast?_concat, Option.map_some, Option.getD_some]
    split_ifs
    · rw [lastTime_concat]
    · rw [List.append_nil, lastTime_concat]
  · cases h with
    | undefined => exact .inl rfl
    | unreached => exact .inl rfl
    | completed => exact absurd rfl hfaults
    | @stopped solutions divisions substeps faults _ hreached hdivisions hsubsteps =>
      refine .inr ⟨substeps, ofStep_eq_nil_iff.mp hreached, hfaults, ?_, rfl, ?_⟩
      · exact hdivisions ▸ hsubsteps
      · rw [lastTime, List.getLast?_map, Option.map_map]
        rfl

/-! ### All motions -/

theorem Motions.lastTime_cases {cell : Cell α} {stepSize : α} {previous : Step α}
    {rest : List (Step α)} {motions : List (Travel α)}
    (h : Motions cell stepSize previous rest motions) :
    lastTime previous.totalTime (motions.flatMap Travel.keyframes) =
        runningTotal previous.totalTime motions ∨
      ∃ before motion substeps, [before, motion.target] <:+ previous :: motions.map Travel.target ∧
        motions.flatMap Travel.faults = motion.faults ∧
        runningTotal previous.totalTime motions = motion.total ∧
        lastTime previous.totalTime (motions.flatMap Travel.keyframes) =
          lastTime before.totalTime motion.keyframes ∧
        GivenUp cell stepSize before substeps motion := by
  induction h with
  | done => exact .inl rfl
  | @stopped previous next rest motion htravelled _ =>
    rw [List.flatMap_singleton, List.flatMap_singleton, runningTotal_cons]
    rcases htravelled.lastTime_cases with htime | ⟨substeps, hgivenUp⟩
    · exact .inl htime
    · exact .inr ⟨previous, motion, substeps, List.suffix_rfl, rfl, rfl, rfl, hgivenUp⟩
  | @onward previous next rest motion motions htravelled hfaults _ ih =>
    have htime : lastTime previous.totalTime motion.keyframes = motion.target.totalTime := by
      rw [htravelled.totalTime_target hfaults]
      rcases htravelled.lastTime_cases with htime | ⟨_, hgivenUp⟩
      · exact htime
      · exact absurd hfaults hgivenUp.faults
    rw [List.flatMap_cons, lastTime_append, htime, runningTotal_cons, List.flatMap_cons, hfaults,
      List.nil_append, ← htravelled.totalTime_target hfaults]
    rcases ih with hsame | ⟨before, last, substeps, hlast, hrest⟩
    · exact .inl hsame
    · exact .inr ⟨before, last, substeps, hlast.trans (List.suffix_cons _ _), hrest⟩

/-! ### Programs -/

/-- A program lasts until its last keyframe, unless its last motion is given up at a substep: then
it lasts until the last substep that was solved, and the last keyframe is the last one before it
where the duration of the substeps changes. -/
theorem compile_duration {name : String} {cell : Cell α} {toolpaths : List (List (Target α))}
    {stepSize : α} {program : Program α}
    (h : Program.compile name cell toolpaths stepSize = .ok program) :
    ∃ final, program.keyframes.getLast? = some final ∧
      (program.duration = final.totalTime ∨
        ∃ before kept substeps, [before, kept] <:+ program.targets ∧ kept.faults = [] ∧
          program.faults ≠ [] ∧
          substepsFrom cell before kept (kept.motionDivisions before stepSize)
            (kept.motionDivisions before stepSize) 1 before before.totalTime =
              .ok (substeps, program.faults) ∧
          program.duration = lastTime before.totalTime (substeps.map Substep.step) ∧
          final.totalTime =
            lastTime before.totalTime (turningPoints cell.hasRedundantArm substeps)) := by
  obtain ⟨count, first, rest, solutions, prepared, journey, hstages, rfl⟩ := exists_stages_eq h
  obtain ⟨htotal, _, _⟩ := hstages.unstamped_first
  rcases timeline_motions hstages.timeline with ⟨_, rfl⟩ | ⟨_, motions, hmotions, rfl⟩
  · exact ⟨prepared.first, rfl, .inl htotal.symm⟩
  · have hlast := getLast?_startKeyframes prepared.first
    have hstart : lastTime 0 (startKeyframes prepared.first) =
        (keptFirst prepared.first).totalTime := by rw [lastTime, hlast]; rfl
    obtain ⟨final, hfinal⟩ : ∃ final, (startKeyframes prepared.first ++
        motions.flatMap Travel.keyframes).getLast? = some final := by
      rw [List.getLast?_append, hlast]
      cases (motions.flatMap Travel.keyframes).getLast? <;> exact ⟨_, rfl⟩
    have htime : final.totalTime = lastTime (keptFirst prepared.first).totalTime
        (motions.flatMap Travel.keyframes) := by
      rw [← hstart, ← lastTime_append, lastTime, hfinal]
      rfl
    refine ⟨final, hfinal, ?_⟩
    rcases hmotions.lastTime_cases with hsame | ⟨before, motion, substeps, hsuffix, hfaults,
      hrunning, hkeyframes, hgivenUp⟩
    · exact .inl (htime.trans hsame).symm
    · refine .inr ⟨before, motion.target, substeps, hsuffix, hgivenUp.reached, ?_, ?_, ?_, ?_⟩
      · exact hfaults.trans_ne hgivenUp.faults
      · rw [hgivenUp.solved]
        exact congrArg (fun faults ↦ Except.ok (substeps, faults)) hfaults.symm
      · exact hrunning.trans hgivenUp.total
      · rw [htime, hkeyframes, hgivenUp.keyframes, lastTime_stampDeltas]

theorem compile_duration_standing : ∃ program final,
    Program.compile "Standing" (.single restingArm) [[standing 0, standing (1 / 2)]] 1 =
      .ok program ∧
    program.keyframes.getLast? = some final ∧ program.duration = final.totalTime := by
  obtain ⟨program, hprogram⟩ := exists_compile_standing 0 (1 / 2)
  have hnone := faults_standing (by norm_num) (by norm_num) hprogram
  obtain ⟨final, hfinal, htime | ⟨_, _, _, _, _, hfaults, _⟩⟩ := compile_duration hprogram
  · exact ⟨program, final, hprogram, hfinal, htime⟩
  · exact absurd hnone hfaults

end Toolpath
