import Toolpath.Proofs.Exact.JointMotion

/-!
Where a program with faults ends. Its motions stop with the first one that has faults, so the faults
of the program are those of one motion and name one target (`Motions.names_of_mem_faults`); the
solutions and keyframes before it have none (`Motions.faults_keyframes`). `compile_truncates` puts
the first target before the motions: without faults a program has all targets, otherwise it ends
with the target that all faults name.
-/

set_option autoImplicit false
set_option relaxedAutoImplicit false

namespace Toolpath

variable {α : Type} [Scalar α]

namespace Stages

variable {cell : Cell α} {toolpaths : List (List (Target α))} {stepSize : α} {count : Nat}
  {first : Step α} {rest : List (Step α)} {solutions : List (Solution α)}
  {prepared : PreparedProgram α} {journey : Journey α} {motions : List (Travel α)}
  (h : Stages cell toolpaths stepSize count first rest solutions prepared journey)

include h

/-- The kept targets are numbered from zero. -/
theorem index_targets : journey.targets.map Step.index = List.range journey.targets.length := by
  refine List.ext_getElem (by simp) fun place hplace _ ↦ ?_
  rw [List.length_map] at hplace
  rw [List.getElem_map, List.getElem_range,
    h.index_of_getElem? (List.getElem?_eq_getElem hplace)]

/-- The faults of all motions name the last target and a group of the cell. -/
theorem names_of_mem_faults
    (hmotions : Motions cell stepSize (keptFirst prepared.first) prepared.rest motions)
    {fault : ProgramFault} (hfault : fault ∈ motions.flatMap Travel.faults) :
    fault.target = motions.length ∧ fault.group < cell.groups.length := by
  obtain ⟨motion, hmem, hfault⟩ := List.mem_flatMap.mp hfault
  obtain ⟨place, hmotion⟩ := List.mem_iff_getElem?.mp hmem
  obtain ⟨_, next, _, hnext, htravelled⟩ := hmotions.exists_travelled hmotion
  obtain ⟨htarget, hgroup⟩ :=
    htravelled.names_of_mem_faults (h.length_waypoints_rest hnext) hfault
  obtain ⟨hlt, _⟩ := List.getElem?_eq_some_iff.mp hmotion
  have hlast : place + 1 = motions.length := by
    refine le_antisymm hlt (not_lt.mp fun hnotLast ↦ ?_)
    exact List.ne_nil_of_mem hfault (hmotions.faults_of_lt hmotion hnotLast)
  rw [htarget, h.index_rest hnext]
  exact ⟨hlast, hgroup⟩

/-- No keyframe of a program whose first target solved has faults. -/
theorem faults_keyframes (hfirst : prepared.first.faults = [])
    (hmotions : Motions cell stepSize (keptFirst prepared.first) prepared.rest motions) :
    ∀ keyframe ∈ startKeyframes prepared.first ++ motions.flatMap Travel.keyframes,
      keyframe.faults = [] := by
  intro keyframe hkeyframe
  rcases List.mem_append.mp hkeyframe with hstart | hlater
  · rw [faults_of_mem_startKeyframes _ keyframe hstart, hfirst]
  · obtain ⟨motion, hmem, hkeyframe⟩ := List.mem_flatMap.mp hlater
    obtain ⟨place, hmotion⟩ := List.mem_iff_getElem?.mp hmem
    obtain ⟨_, next, _, hnext, htravelled⟩ := hmotions.exists_travelled hmotion
    exact htravelled.faults_keyframes (h.length_waypoints_rest hnext) keyframe hkeyframe

end Stages

/-- Where no motion has faults, no target has any. -/
theorem Motions.faults_targets {cell : Cell α} {stepSize : α} {previous : Step α}
    {rest : List (Step α)} {motions : List (Travel α)}
    (h : Motions cell stepSize previous rest motions)
    (hnone : motions.flatMap Travel.faults = []) :
    ∀ target ∈ motions.map Travel.target, target.faults = [] := by
  intro target htarget
  obtain ⟨motion, hmem, rfl⟩ := List.mem_map.mp htarget
  obtain ⟨place, hmotion⟩ := List.mem_iff_getElem?.mp hmem
  obtain ⟨_, _, _, _, htravelled⟩ := h.exists_travelled hmotion
  exact htravelled.faults_target (List.flatMap_eq_nil_iff.mp hnone motion hmem)

/-! ### Programs -/

namespace Program

/-- The program has all of the given number of targets, and reaches them. -/
structure IsWhole (program : Program α) (count : Nat) : Prop where
  targets : program.targets.map Step.index = List.range count
  faults_targets : ∀ target ∈ program.targets, target.faults = []
  faults_keyframes : ∀ keyframe ∈ program.keyframes, keyframe.faults = []

/-- The program ends with the target that its faults name. -/
structure EndsAt (program : Program α) (last : Nat) : Prop where
  targets : program.targets.map Step.index = List.range (last + 1)
  names : ∀ fault ∈ program.faults, fault.target = last ∧
    fault.group < program.cell.groups.length ∧
    fault.message = "Errors in target " ++ toString last ++ " of robot " ++ toString fault.group ++
      ": " ++ fault.cause
  faults_targets : ∀ {place : Nat} {target : Step α}, place < last →
    program.targets[place]? = some target → target.faults = []
  faults_keyframes : last ≠ 0 → ∀ keyframe ∈ program.keyframes, keyframe.faults = []

end Program

/-- A program without faults reaches every target of its toolpaths. Otherwise it is cut off after
one target, which every fault names with one of the groups, and everything before that target has no
faults. -/
theorem compile_truncates {name : String} {cell : Cell α} {toolpaths : List (List (Target α))}
    {stepSize : α} {program : Program α}
    (h : Program.compile name cell toolpaths stepSize = .ok program) :
    ∃ count, (∀ toolpath ∈ toolpaths, toolpath.length = count) ∧
      (program.faults = [] → program.IsWhole count) ∧
      (program.faults ≠ [] → ∃ last < count, program.EndsAt last) := by
  obtain ⟨count, first, rest, solutions, prepared, journey, hstages, hcell, htargets, hkeyframes,
    hfaults, _⟩ := exists_stages h
  refine ⟨count, length_of_toolpathLength hstages.length, ?_⟩
  have hindexes := hstages.index_targets
  have hcount := hstages.length_rest
  have hmessage : ∀ {fault : ProgramFault} {last : Nat},
      fault.target = last ∧ fault.group < cell.groups.length → fault.target = last ∧
        fault.group < program.cell.groups.length ∧
        fault.message = "Errors in target " ++ toString last ++ " of robot " ++
          toString fault.group ++ ": " ++ fault.cause := by
    rintro fault last ⟨rfl, hgroup⟩
    exact ⟨rfl, hcell ▸ hgroup, rfl⟩
  rcases timeline_motions hstages.timeline with ⟨hfirst, rfl⟩ | ⟨hfirst, motions, hmotions, rfl⟩
  · refine ⟨fun hnone ↦ ?_, fun _ ↦ ⟨0, by omega, ?_⟩⟩
    · exact absurd (ofStep_eq_nil_iff.mp (hfaults.symm.trans hnone)) hfirst
    · refine ⟨htargets ▸ hindexes, fun fault hfault ↦ hmessage ?_, fun hlt ↦ ?_, fun hne ↦ ?_⟩
      · rw [hfaults] at hfault
        have hwaypoints := hstages.length_waypoints_prepared _ List.mem_cons_self
        rw [← hstages.index_first, ← hwaypoints]
        exact ⟨target_of_mem_ofStep hfault, group_lt_of_mem_ofStep hfault⟩
      · exact absurd hlt (Nat.not_lt_zero _)
      · exact absurd rfl hne
  · have hclean := hstages.faults_keyframes hfirst hmotions
    have hstart := (faults_keptFirst prepared.first).trans hfirst
    have hlength : (keptFirst prepared.first :: motions.map Travel.target).length =
        motions.length + 1 := by simp
    rw [hlength] at hindexes
    refine ⟨fun hnone ↦ ?_, fun _ ↦ ⟨motions.length, ?_, ?_⟩⟩
    · rw [hfaults] at hnone
      refine ⟨?_, ?_, hkeyframes ▸ hclean⟩
      · rw [htargets, hindexes, ← hlength, hstages.length_targets hnone]
      · rw [htargets]
        exact List.forall_mem_cons.mpr ⟨hstart, hmotions.faults_targets hnone⟩
    · have hle := hmotions.length_le
      omega
    · refine ⟨htargets ▸ hindexes, fun fault hfault ↦ hmessage ?_, fun hlt htarget ↦ ?_,
        fun _ ↦ hkeyframes ▸ hclean⟩
      · rw [hfaults] at hfault
        exact hstages.names_of_mem_faults hmotions hfault
      · rw [htargets] at htarget
        exact hmotions.faults_start hstart htarget (List.getElem?_eq_getElem hlt)

/-- The arm is asked for axis values past the end of its ranges. -/
theorem not_admits_restingArm : ¬ restingArm.Admits (List.replicate 6 2) := by
  intro hadmits
  have hinside := outOfRange_eq_nil_iff.mp hadmits.inRange
    (.revolute 0 0 (-1) 1 1, 2) (by simp [restingArm, List.replicate])
  rw [Joint.isInRange, Bool.and_eq_true, decide_eq_true_iff, decide_eq_true_iff] at hinside
  simp only [Joint.revolute, Joint.tolerance] at hinside
  linarith [hinside.2]

/-- A program whose second target is out of range has faults. -/
theorem faults_standing_ne_nil {program : Program ℝ} (h : Program.compile "Standing"
    (.single restingArm) [[standing 0, standing 2]] 1 = .ok program) : program.faults ≠ [] := by
  intro hnone
  obtain ⟨count, first, rest, solutions, prepared, journey, hstages, _, _, _, hfaults, _⟩ :=
    exists_stages h
  obtain rfl : 2 = count := Except.ok.inj hstages.length
  obtain ⟨rfl, rfl⟩ := List.cons.inj hstages.steps
  have hlast : 1 < journey.targets.length := by
    rw [hstages.length_targets (hfaults.symm.trans hnone)]
    exact Nat.one_lt_two
  obtain ⟨before, next, motion, -, hleg⟩ :=
    hstages.exists_leg (List.getElem?_eq_getElem hlast)
  have hnext := hleg.stop
  have hmotion : motion.faults = [] := by
    refine hleg.faults_motion fun fault hfault ↦ ?_
    rw [← hfaults, hnone] at hfault
    cases hfault
  obtain ⟨target, htarget, hgoal⟩ : ∃ target, next.targets[0]? = some target ∧
      target.goal = .joints (List.replicate 6 2) := by
    obtain ⟨_, hrest⟩ := List.cons.inj hstages.prepares.steps
    rw [hrest] at hnext
    obtain rfl := Option.some.inj hnext
    exact ⟨_, rfl, rfl⟩
  have hgroup : (Cell.single restingArm).groups[0]? = some ⟨restingArm, []⟩ := rfl
  exact not_admits_restingArm
    (hleg.travelled.admits_of_faults_nil hmotion hleg.count hgroup htarget hgoal)

theorem compile_truncates_standing : ∃ program, Program.compile "Standing" (.single restingArm)
    [[standing 0, standing 2]] 1 = .ok program ∧ program.faults ≠ [] ∧
      ∃ last < 2, program.EndsAt last := by
  obtain ⟨program, hprogram⟩ := exists_compile_standing 0 2
  have hfaulty := faults_standing_ne_nil hprogram
  obtain ⟨count, hcount, _, htruncated⟩ := compile_truncates hprogram
  obtain rfl := hcount _ (List.mem_singleton_self _)
  exact ⟨program, hprogram, hfaulty, htruncated hfaulty⟩

end Toolpath
