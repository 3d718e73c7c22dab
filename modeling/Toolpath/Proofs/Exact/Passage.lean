import Toolpath.Proofs.Exact.Passing
import Toolpath.Proofs.Shape

/-!
The program of the arm over its slide. The arm is put in its position and pauses, then the slide
passes and the arm pauses again. The program runs to its end (`exists_passage_keyframes`), so that
its motion is a straight one in a moving frame, of several substeps and keyframes.
-/

set_option autoImplicit false
set_option relaxedAutoImplicit false

namespace Toolpath

/-! ### The targets -/

noncomputable def slideFrame : Frame ℝ :=
  ⟨⟨.authored 0, "Slide"⟩, 1, some 0, some 0⟩

/-- The arm in its position, the slide at its end, and a pause. -/
noncomputable def begun : Target ℝ :=
  { Target.ofGoal (.joints RedundantArm.rightAngles) with
    frame := slideFrame
    command := some pause
    external := [0] }

/-- Straight along the slide as far as it comes, then a pause. -/
noncomputable def gone (length : ℝ) : Target ℝ :=
  { Target.ofGoal (.cartesian (passed length) none .linear) with
    frame := slideFrame
    command := some pause
    external := [length] }

/-- The author forces a configuration, which a straight motion does not heed. -/
noncomputable def passage (length : ℝ) : List (List (Target ℝ)) :=
  [[begun, (gone length).withConfiguration (some ⟨5⟩)]]

theorem onSlide_begun : begun.OnSlide 0 :=
  ⟨rfl, rfl, rfl, rfl, rfl⟩

theorem passes_gone (length : ℝ) : (gone length).Passes length :=
  ⟨⟨rfl, rfl, rfl, rfl, rfl⟩, none, .inl rfl, rfl⟩

namespace Target

variable {target : Target ℝ} {value : ℝ}

theorem OnSlide.relabel (h : target.OnSlide value) (naming : Naming) :
    (target.relabel naming.relabelling).OnSlide value :=
  ⟨(naming.key_relabelling .frame target.frame.label).trans h.key, h.pose, h.coupling, h.tool,
    h.external⟩

theorem Passes.relabel (h : target.Passes value) (naming : Naming) :
    (target.relabel naming.relabelling).Passes value :=
  ⟨h.toOnSlide.relabel naming, h.goal⟩

end Target

theorem placeable_slideCell (length : ℝ) {target : Target ℝ}
    (h : target.coupling = (some 0, some 0)) : (slideCell length).Placeable [target] := by
  obtain ⟨hgroup, hmechanism⟩ := Prod.mk.inj h
  have hone : ∀ index found, [target][index]? = some found → index = 0 ∧ found = target := by
    intro index found hfound
    obtain ⟨hindex, hvalue⟩ := List.getElem?_eq_some_iff.mp hfound
    obtain rfl : index = 0 := Nat.lt_one_iff.mp hindex
    exact ⟨rfl, hvalue.symm⟩
  refine ⟨rfl, Cell.checkFrames_eq_ok_iff.mpr fun index found hfound ↦ ?_,
    Cell.not_hasLoop_of_lt fun group carrier hfollows ↦ ?_⟩
  · obtain ⟨rfl, rfl⟩ := hone index found hfound
    rw [Cell.checkFrame, hgroup, hmechanism]
    rfl
  · obtain ⟨found, hfound, hcoupled, hne⟩ := hfollows
    obtain ⟨rfl, rfl⟩ := hone group found hfound
    exact absurd (Option.some.inj (hcoupled.symm.trans hgroup)) hne

theorem rigid_slideCell (length : ℝ) : (slideCell length).Rigid := by
  refine ⟨Pose.rigid_one, List.forall_mem_singleton.mpr ⟨Pose.rigid_one, ?_⟩⟩
  exact List.forall_mem_singleton.mpr ⟨Pose.rigid_one, List.forall_mem_nil _⟩

theorem rigid_passed (value : ℝ) : (passed value).Rigid :=
  (Pose.rigid_translation value 0 0).inverse.mul rigid_angular

theorem rigid_passage (length : ℝ) :
    ∀ toolpath ∈ passage length, ∀ target ∈ toolpath, target.Rigid := by
  intro toolpath htoolpath target htarget
  obtain rfl := List.mem_singleton.mp htoolpath
  rcases List.mem_pair.mp htarget with rfl | rfl
  · exact ⟨fun hgoal ↦ (nomatch hgoal), Pose.rigid_one, Pose.rigid_one⟩
  · refine ⟨fun hgoal ↦ ?_, Pose.rigid_one, Pose.rigid_one⟩
    exact (Goal.cartesian.inj hgoal).1 ▸ rigid_passed length

/-- The program of the slide leads from the target `before` to the target `kept`. -/
structure Program.Passage (program : Program ℝ) (length : ℝ) (before kept : Step ℝ) : Prop where
  compiled : Program.compile "Passage" (slideCell length) (passage length) 1 = .ok program
  start : program.targets[0]? = some before
  stop : program.targets[1]? = some kept
  faultless : program.faults = []
  asked : kept.targets = [(gone length).relabel (namesOf (passage length))]
  begins : before.Over 0
  passes : kept.Passes length
  divisions : kept.divisions = max 1 ⌈length - distanceTolerance⌉₊

/-- The keyframes of the program: the first target before and after its pause, and the motion, whose
substeps are followed by the end of the second pause. -/
structure Program.PassageKeyframes (program : Program ℝ) (length : ℝ) (kept : Step ℝ)
    (first second : Step ℝ) (moving : List (Step ℝ)) : Prop where
  keyframes : program.keyframes = first :: second :: moving
  stands : first.Over 0 ∧ second.Over 0
  index : first.index = 0 ∧ second.index = 0
  times : first.totalTime = 0 ∧ second.totalTime = 1
  count : moving.length = kept.divisions + 1
  moves : ∀ keyframe ∈ moving, keyframe.index = 1 ∧
    ∃ value ∈ Set.Icc 0 length, keyframe.Passes value
  duration : 2 ≤ program.duration

/-- On the way to the second target the arm is over the slide. -/
theorem Program.PassageKeyframes.overSlide {program : Program ℝ} {length : ℝ}
    {kept first second keyframe : Step ℝ} {moving : List (Step ℝ)}
    (h : program.PassageKeyframes length kept first second moving)
    (hkeyframe : keyframe ∈ program.keyframes) (hindex : keyframe.index = 1) :
    OverSlide length keyframe.solutions := by
  rw [h.keyframes, List.mem_cons, List.mem_cons] at hkeyframe
  rcases hkeyframe with rfl | rfl | hmoving
  · exact absurd (h.index.1.symm.trans hindex) zero_ne_one
  · exact absurd (h.index.2.symm.trans hindex) zero_ne_one
  · obtain ⟨value, hvalue, hpasses⟩ := (h.moves keyframe hmoving).2
    exact ⟨value, hvalue, hpasses.over.exists_solutions⟩

namespace Program.Passage

variable {program : Program ℝ} {length : ℝ} {before kept : Step ℝ}
  (h : program.Passage length before kept)

include h

/-- The program pauses at the end. -/
theorem dwell : kept.dwell = 1 :=
  Step.dwell_of_pause h.asked rfl

theorem isLinear : ∀ target ∈ kept.targets, target.isLinear = true := by
  rw [h.asked]
  exact List.forall_mem_singleton.mpr rfl

theorem fault_target (place : Nat) : ∀ fault ∈ program.faults, fault.target ≠ place := by
  rw [h.faultless]
  exact List.forall_mem_nil _

end Program.Passage

theorem exists_compile_passage (length : ℝ) : ∃ program,
    Program.compile "Passage" (slideCell length) (passage length) 1 = .ok program := by
  have hsize : isStepSize (1 : ℝ) = true := by simp [isStepSize, Exact.isFinite_eq_true]
  have hcount : toolpathLength (passage length) = .ok 2 := rfl
  refine exists_compile "Passage"
    (rfl : (passage length).length = (slideCell length).groups.length) hcount hsize ?_
  intro step hstep
  rcases List.mem_pair.mp hstep with rfl | rfl <;> exact placeable_slideCell length rfl

/-- The first target is a keyframe before its pause and one after it. -/
theorem Step.Over.keptFirst {first : Step ℝ} {value : ℝ} (h : first.Over value)
    (hdwell : first.dwell = 1) :
    (Toolpath.keptFirst first).Over value ∧ (Toolpath.keptFirst first).totalTime = 1 ∧
      startKeyframes first = [{ first with totalTime := 0 }, Toolpath.keptFirst first] := by
  have hkept : Toolpath.keptFirst first =
      { first with totalTime := 0 + first.dwell, deltaTime := first.dwell } := by
    rw [Toolpath.keptFirst, hdwell, if_pos one_pos]
  refine ⟨hkept ▸ h, ?_, ?_⟩
  · rw [hkept, hdwell, zero_add]
  · rw [startKeyframes, hdwell, if_pos one_pos]

section Passage

variable {length : ℝ} {count : Nat} {first : Step ℝ} {rest : List (Step ℝ)}
  {solutions : List (Solution ℝ)} {prepared : PreparedProgram ℝ} {journey : Journey ℝ}
  (h : Stages (slideCell length) (passage length) 1 count first rest solutions prepared journey)

include h

/-- The prepared targets are the authored ones under new names, without the forced configuration. -/
theorem targets_prepared_passage {place : Nat} {named : Step ℝ}
    (hnamed : (prepared.first :: prepared.rest)[place]? = some named) :
    ∃ kept, [begun, gone length][place]? = some kept ∧
      named.targets = [kept.relabel (namesOf (passage length))] := by
  have hlength := h.length_waypoints_prepared named (List.mem_of_getElem? hnamed)
  rw [← Step.length_targets] at hlength
  obtain ⟨target, htarget⟩ := List.length_eq_one_iff.mp hlength
  obtain ⟨toolpath, authored, htoolpath, hauthored, hpassed⟩ :=
    h.exists_passed hnamed (htarget ▸ List.getElem?_cons_zero : named.targets[0]? = some target)
  obtain rfl := Option.some.inj htoolpath
  obtain ⟨solution, hsolution⟩ :=
    List.length_eq_one_iff.mp (Cell.length_of_solve h.prepares.solve).2
  obtain ⟨kept, hplace, hkept⟩ : ∃ kept, [begun, gone length][place]? = some kept ∧
      (slideCell length).keptTarget 0 place authored solution = kept := by
    match place, hauthored with
    | 0, hbegun =>
      obtain rfl := Option.some.inj hbegun
      refine ⟨begun, rfl, ?_⟩
      rw [Cell.keptTarget, if_neg fun hcartesian ↦ Bool.false_ne_true hcartesian.2]
      rfl
    | 1, hgone =>
      obtain rfl := Option.some.inj hgone
      refine ⟨gone length, rfl, ?_⟩
      rw [Cell.keptTarget, if_neg fun hfirst ↦ one_ne_zero hfirst.1]
      rfl
  refine ⟨kept, hplace, ?_⟩
  rw [htarget, hpassed solution fun _ ↦ hsolution ▸ List.getElem?_cons_zero, hkept]

/-- The program begins with the arm in its position. -/
theorem over_first_passage (hlength : 0 ≤ length) :
    prepared.first.Over 0 ∧ prepared.first.faults = [] ∧ prepared.first.dwell = 1 := by
  obtain ⟨authored, hauthored, htargets⟩ := targets_prepared_passage h List.getElem?_cons_zero
  obtain rfl := Option.some.inj hauthored
  have hfirst := h.prepares.solutions_first (h.length_waypoints first List.mem_cons_self)
  have hsolve := h.prepares.solve
  obtain ⟨target, coupled, htarget, hsolution⟩ := Cell.exists_solve_of_group hsolve
    (rfl : (slideCell length).groups[0]? = some (slideside length))
  obtain ⟨solution, rfl⟩ := List.length_eq_one_iff.mp (Cell.length_of_solve hsolve).2
  obtain rfl : target = begun := by
    obtain rfl : 2 = count := Except.ok.inj h.length
    obtain ⟨rfl, _⟩ := List.cons.inj h.steps
    exact (Option.some.inj htarget).symm
  have hover : solution.Over 0 :=
    Option.some.inj hsolution ▸ over_solve_start onSlide_begun le_rfl hlength rfl
  refine ⟨Step.over_of_solved htargets hfirst (onSlide_begun.relabel _) hover,
    Step.faults_eq_nil ?_, Step.dwell_of_pause htargets rfl⟩
  rw [hfirst]
  exact List.forall_mem_singleton.mpr hover.faults

/-- One target follows, which leaves the tool where it is. -/
theorem exists_next_passage : ∃ next, prepared.rest = [next] ∧ next.index = 1 ∧
    next.waypoints.length = (slideCell length).groups.length ∧
    next.targets = [(gone length).relabel (namesOf (passage length))] := by
  obtain rfl : 2 = count := Except.ok.inj h.length
  obtain ⟨next, hnext⟩ := List.length_eq_one_iff.mp (Nat.succ.inj h.length_rest)
  have hnamed : prepared.rest[0]? = some next := hnext ▸ rfl
  have hsecond : (prepared.first :: prepared.rest)[1]? = some next := hnamed
  obtain ⟨authored, hauthored, htargets⟩ := targets_prepared_passage h hsecond
  obtain rfl := Option.some.inj hauthored
  exact ⟨next, hnext, h.index_rest hnamed, h.length_waypoints_rest hnamed, htargets⟩

end Passage

/-- While the slide passes, the program runs to its end. -/
theorem exists_passage_keyframes {length : ℝ} (hlength : 0 ≤ length) :
    ∃ program before kept first second moving, Program.Passage program length before kept ∧
      Program.PassageKeyframes program length kept first second moving := by
  obtain ⟨program, hprogram⟩ := exists_compile_passage length
  have hcompiled := hprogram
  obtain ⟨count, first, rest, solutions, prepared, journey, hstages, rfl⟩ :=
    exists_stages_eq hprogram
  obtain ⟨hover, hclean, hdwell⟩ := over_first_passage hstages hlength
  obtain ⟨hstart, htime, hfirst⟩ := hover.keptFirst hdwell
  have hindex : ∀ keyframe ∈ startKeyframes prepared.first, keyframe.index = 0 :=
    hstages.index_first ▸ index_of_mem_startKeyframes prepared.first
  rw [hfirst, List.forall_mem_cons, List.forall_mem_singleton] at hindex
  obtain ⟨next, hnext, hnumber, hone, htargets⟩ := exists_next_passage hstages
  have hasked := (passes_gone length).relabel
    (Naming.ofListing (distinctBy Attribute.id (authoredUses (passage length))))
  have hrange : (0 : ℝ) ∈ Set.Icc 0 length := ⟨le_rfl, hlength⟩
  have hend : length ∈ Set.Icc 0 length := ⟨hlength, le_rfl⟩
  rcases timeline_motions hstages.timeline with ⟨hfaulty, _⟩ | ⟨_, motions, hmotions, hjourney⟩
  · exact absurd hclean hfaulty
  rw [hnext] at hmotions
  cases hmotions with
  | stopped _ htravelled hfaults =>
    exact absurd (htravelled.faults_of_passes hstart htargets hasked hrange hend) hfaults
  | @onward _ _ _ motion others htravelled hfaults hrest =>
    cases hrest
    obtain ⟨hkept, hdivisions, hkeyframes⟩ := htravelled.passes hstart htargets hasked hrange hend
    obtain ⟨hmany, hlasts⟩ := htravelled.pauses hstart htargets hasked hrange hend rfl
      (htime ▸ zero_le_one)
    refine ⟨_, _, motion.target, { prepared.first with totalTime := 0 }, keptFirst prepared.first,
      motion.keyframes, ⟨hcompiled, hjourney ▸ rfl, hjourney ▸ rfl,
        hjourney ▸ (List.append_nil _).trans hfaults,
        (Prod.mk.inj (htravelled.task hone)).2.trans htargets, hstart, hkept, ?_⟩,
      ⟨?_, ⟨hover, hstart⟩, hindex, ⟨rfl, htime⟩, hmany, fun keyframe hkeyframe ↦ ?_, ?_⟩⟩
    · rw [hdivisions, zero_sub, abs_neg, abs_of_nonneg hlength, div_one]
    · show journey.keyframes = _
      rw [hjourney, hfirst, List.flatMap_singleton]
      rfl
    · obtain ⟨_, _, _, _, substep, harrived, hsolved, hsame, _⟩ :=
        htravelled.exists_solvedFrom hone hkeyframe
      exact ⟨hsame.trans (hsolved.index.trans (harrived.trans hnumber)),
        hkeyframes keyframe hkeyframe⟩
    · show 2 ≤ journey.total
      rw [hjourney]
      show 2 ≤ motion.total
      linarith

theorem exists_passage {length : ℝ} (hlength : 0 ≤ length) :
    ∃ program before kept, Program.Passage program length before kept := by
  obtain ⟨program, before, kept, _, _, _, hpassage, _⟩ := exists_passage_keyframes hlength
  exact ⟨program, before, kept, hpassage⟩

/-- In steps of one, a slide of four is passed in four. -/
theorem divisions_passage_four {program : Program ℝ} {before kept : Step ℝ}
    (h : Program.Passage program 4 before kept) : kept.divisions = 4 := by
  have hceil : ⌈(4 : ℝ) - distanceTolerance⌉₊ = 4 := by
    rw [Nat.ceil_eq_iff (by norm_num)]
    norm_num [distanceTolerance]
  rw [h.divisions, hceil]
  rfl

theorem exists_passage_four : ∃ program before kept, Program.Passage program 4 before kept ∧
    kept.divisions = 4 := by
  obtain ⟨program, before, kept, hpassage⟩ := exists_passage (by norm_num : (0 : ℝ) ≤ 4)
  exact ⟨program, before, kept, hpassage, divisions_passage_four hpassage⟩

end Toolpath
