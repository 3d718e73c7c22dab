import Toolpath.Arm.Preset
import Toolpath.Double.Scalar
import Toolpath.Proofs.Truncation
import Toolpath.Proofs.Collision.Sweep

/-!
In which states a program reports collisions. The sweep between keyframes passes over states with
faults, but a timeline of one keyframe is checked as it is. Such a timeline is all that is left of a
program whose first target fails; hence reported solutions have faults exactly if that target has
(`compile_collision_faults`).
-/

set_option autoImplicit false
set_option relaxedAutoImplicit false

namespace Toolpath

variable {α σ : Type} [Scalar α]

namespace CollisionCheck

variable {check : CollisionCheck α σ} {collision : Collision α}

/-- The earliest collision is in the only keyframe of the timeline, or on the way between two
keyframes and then in a state without faults. -/
theorem earliest?_cases {keyframes : List (Step α)}
    (h : check.earliest? keyframes = some collision) :
    (∃ only, keyframes = [only] ∧ collision.solutions = only.solutions) ∨
      2 ≤ keyframes.length ∧ ∀ solution ∈ collision.solutions, solution.faults = [] := by
  unfold earliest? at h
  split at h
  · cases h
  · next only => exact .inl ⟨only, rfl, (collision?_eq_some_iff.mp h).solutions_eq⟩
  · refine .inr ⟨by simp, ?_⟩
    split at h
    · next hfound =>
      obtain rfl := Option.some.inj h
      exact faults_of_pair? hfound
    · exact faults_of_laterPairs? h

/-- Where any pair of shapes collides, a collision is reported. -/
theorem exists_collision? {target : Step α} {solutions : List (Solution α)} {pair : Nat × Nat}
    (hpair : pair ∈ check.settings.pairs) (hcollides : check.collides
      (check.scene.posedShapes check.cell check.settings target solutions) pair = true) :
    ∃ collision, check.collision? target solutions = some collision := by
  obtain ⟨found, hfound⟩ :=
    Option.isSome_iff_exists.mp (List.find?_isSome.mpr ⟨pair, hpair, hcollides⟩)
  exact ⟨_, by rw [collision?, hfound]; rfl⟩

end CollisionCheck

omit [Scalar α] in
/-- A step without faults is one whose solutions have none. -/
theorem Step.faults_eq_nil_iff {step : Step α} :
    step.faults = [] ↔ ∀ solution ∈ step.solutions, solution.faults = [] := by
  refine ⟨fun h solution ↦ Step.faults_of_mem_solutions h, fun h ↦ ?_⟩
  rw [Step.faults_eq, List.flatMap_eq_nil_iff]
  rintro ⟨solution, group⟩ hmem
  have hsolution := List.mem_of_getElem? (List.mem_zipIdx_iff_getElem?.mp hmem)
  exact List.map_eq_nil_iff.mpr (h solution hsolution)

/-- The collision that a program reports is in a state without faults, unless the program has faults
at its first target: that target is then the only keyframe, and its solutions are reported as they
are. -/
theorem compile_collision_faults {name : String} {cell : Cell α}
    {toolpaths : List (List (Target α))} {stepSize : α} {program : Program α}
    (h : Program.compile name cell toolpaths stepSize = .ok program) {scene : Scene σ}
    {settings : CollisionSettings α σ} {contact : Contact α σ} {collision : Collision α}
    (hcollision : program.collision? scene settings contact = some collision) :
    ((∀ solution ∈ collision.solutions, solution.faults = []) ↔
      ∀ fault ∈ program.faults, fault.target ≠ 0) ∧
    ((∃ fault ∈ program.faults, fault.target = 0) → ∃ only, program.keyframes = [only] ∧
      only.faults ≠ [] ∧ collision.solutions = only.solutions) := by
  obtain ⟨count, first, rest, solutions, prepared, journey, hstages, hprogram⟩ :=
    exists_stages_eq h
  have hkeyframes : program.keyframes = journey.keyframes := by rw [hprogram]
  have hfaults : program.faults = journey.faults := by rw [hprogram]
  rw [hfaults, hkeyframes]
  have hcases := CollisionCheck.earliest?_cases hcollision
  rw [hkeyframes] at hcases
  rcases timeline_motions hstages.timeline with ⟨hfirst, rfl⟩ | ⟨hfirst, motions, hmotions, rfl⟩
  · have honly : collision.solutions = prepared.first.solutions := by
      rcases hcases with ⟨only, hsingle, hsolutions⟩ | ⟨hmany, _⟩
      · rw [hsolutions, (List.singleton_inj.mp hsingle)]
      · exact absurd hmany (by simp)
    obtain ⟨fault, hfault⟩ := List.exists_mem_of_ne_nil _ (mt ofStep_eq_nil_iff.mp hfirst)
    have htarget : fault.target = 0 := (target_of_mem_ofStep hfault).trans hstages.index_first
    refine ⟨⟨fun hclean ↦ ?_, fun hnone ↦ absurd htarget (hnone fault hfault)⟩,
      fun _ ↦ ⟨prepared.first, rfl, hfirst, honly⟩⟩
    rw [honly] at hclean
    exact absurd (Step.faults_eq_nil_iff.mpr hclean) hfirst
  · have hlater : ∀ fault ∈ motions.flatMap Travel.faults, fault.target ≠ 0 := by
      intro fault hfault
      rw [(hstages.names_of_mem_faults hmotions hfault).1]
      obtain ⟨motion, hmotion, _⟩ := List.mem_flatMap.mp hfault
      exact (List.length_pos_of_mem hmotion).ne'
    refine ⟨⟨fun _ ↦ hlater, fun _ ↦ ?_⟩, fun ⟨fault, hfault, htarget⟩ ↦
      absurd htarget (hlater fault hfault)⟩
    rcases hcases with ⟨only, hsingle, hsolutions⟩ | ⟨_, hclean⟩
    · have hkept : startKeyframes prepared.first ++ motions.flatMap Travel.keyframes = [only] :=
        hsingle
      have hmem : only ∈ startKeyframes prepared.first ++ motions.flatMap Travel.keyframes :=
        hkept ▸ List.mem_singleton_self only
      rw [hsolutions, ← Step.faults_eq_nil_iff]
      exact hstages.faults_keyframes hfirst hmotions only hmem
    · exact hclean

/-! ### A collision of clamped joints -/

/-- A shape on each of the first two planes of the only group. -/
def twoShapes : Scene Unit :=
  ⟨[[some (), some ()]], []⟩

theorem exists_planes_solve {group : Group α} (hplain : group.externals = []) (index : Nat)
    (target : Target α) (coupled : Option (Pose α)) (previous : Option (List α)) (parent : Pose α) :
    ∃ base plane rest, (group.solve index target coupled previous parent).planes =
      base :: plane :: rest := by
  simp only [Group.solve, hplain, Group.solveMechanisms, List.flatMap_nil, List.nil_append,
    Arm.solve, List.cons_append]
  generalize List.map _ (group.arm.solver.forward _) = planes
  cases planes with
  | nil => exact ⟨_, _, _, rfl⟩
  | cons plane rest => exact ⟨_, _, _, rfl⟩

/-- The first target of a single arm is solved for what it asks for. -/
theorem Stages.exists_solve_single {arm : Arm α} {toolpaths : List (List (Target α))} {stepSize : α}
    {count : Nat} {first : Step α} {rest : List (Step α)} {solutions : List (Solution α)}
    {prepared : PreparedProgram α} {journey : Journey α}
    (h : Stages (.single arm) toolpaths stepSize count first rest solutions prepared journey) :
    ∃ target coupled previous parent,
      (first.mapTargets (fitExternal (.single arm))).targets[0]? = some target ∧
      prepared.first.solutions =
        [(⟨arm, []⟩ : Group α).solve 0 target coupled previous parent] := by
  have hsolve := h.prepares.solve
  obtain ⟨hcount, hframes⟩ := Cell.checked_of_solve hsolve
  obtain ⟨solution, rfl⟩ := List.length_eq_one_iff.mp (Cell.length_of_solve hsolve).2
  obtain ⟨group, target, coupled, hgroup, htarget, rfl, _⟩ :=
    Cell.exists_solve_of_getElem? hcount hframes hsolve (rfl : [solution][0]? = some solution)
  obtain rfl := Option.some.inj hgroup
  exact ⟨target, coupled, _, _, htarget,
    h.prepares.solutions_first (h.length_waypoints first List.mem_cons_self)⟩

/-- Shapes that always collide do so wherever a single arm stands. -/
theorem exists_collision?_twoShapes {cell : Cell α} {group : Group α}
    (hgroups : cell.groups = [group]) {solution : Solution α} {base plane : Pose α}
    {rest : List (Pose α)} (hplanes : solution.planes = base :: plane :: rest)
    (target : Step α) : ∃ collision,
      CollisionCheck.collision? ⟨cell, twoShapes, .ofSets [0] [1], fun _ _ _ _ ↦ true⟩ target
        [solution] = some collision := by
  have hpairs : (0, 1) ∈ (CollisionSettings.ofSets [0] [1] : CollisionSettings α Unit).pairs :=
    List.mem_singleton_self _
  refine CollisionCheck.exists_collision? hpairs ?_
  simp [CollisionCheck.collides, Scene.posedShapes, Scene.groupShapes, Scene.planeShape?, twoShapes,
    hgroups, hplanes, List.zipIdx_cons]

/-- A target without its axis values is all that is left of a program that starts with it. -/
theorem exists_keyframe_stunted {program : Program Float} (h : Program.compile "Stunted"
    (.single .irb4600) [[.ofGoal (.joints [])]] 1.0 = .ok program) :
    ∃ only solution, program.cell = .single .irb4600 ∧ program.keyframes = [only] ∧
      only.solutions = [solution] ∧
      (∃ base plane rest, solution.planes = base :: plane :: rest) ∧
      ∃ fault ∈ program.faults, fault.target = 0 := by
  obtain ⟨count, first, rest, solutions, prepared, journey, hstages, rfl⟩ := exists_stages_eq h
  obtain rfl : 1 = count := Except.ok.inj hstages.length
  obtain ⟨rfl, rfl⟩ := List.cons.inj hstages.steps
  obtain ⟨target, coupled, previous, parent, htarget, hfirst⟩ := hstages.exists_solve_single
  have hgoal : target.goal = .joints [] := by
    obtain rfl := Option.some.inj htarget
    rfl
  have hfaults : prepared.first.faults ≠ [] := by
    intro hclean
    rw [Step.faults_eq_nil_iff, hfirst, List.forall_mem_singleton] at hclean
    exact absurd (Group.admits_of_solve hgoal hclean).length (by decide)
  rcases timeline_motions hstages.timeline with ⟨_, rfl⟩ | ⟨hnone, _⟩
  · obtain ⟨fault, hfault⟩ := List.exists_mem_of_ne_nil _ (mt ofStep_eq_nil_iff.mp hfaults)
    exact ⟨prepared.first, _, rfl, rfl, hfirst, exists_planes_solve rfl 0 target coupled _ _, fault,
      hfault, (target_of_mem_ofStep hfault).trans hstages.index_first⟩
  · exact absurd hnone hfaults

/-- The arm is not where its clamped joints are, but a collision is reported there. -/
theorem compile_collision_faults_stunted :
    ∃ (program : Program Float) (collision : Collision Float),
    Program.compile "Stunted" (.single .irb4600) [[.ofGoal (.joints [])]] 1.0 = .ok program ∧
    program.collision? twoShapes (.ofSets [0] [1]) (fun _ _ _ _ ↦ true) = some collision ∧
    (∃ fault ∈ program.faults, fault.target = 0) ∧
    ∃ solution ∈ collision.solutions, solution.faults ≠ [] := by
  obtain ⟨program, hprogram⟩ : ∃ program : Program Float,
      Program.compile "Stunted" (.single .irb4600) [[.ofGoal (.joints [])]] 1.0 = .ok program :=
    exists_compile_single "Stunted" .irb4600 rfl (by decide)
  obtain ⟨only, solution, hcell, hkeyframes, hsolutions, ⟨base, plane, rest, hplanes⟩, hreported⟩ :=
    exists_keyframe_stunted hprogram
  have hgroups : program.cell.groups = [⟨.irb4600, []⟩] := congrArg Cell.groups hcell
  obtain ⟨collision, hfound⟩ := exists_collision?_twoShapes hgroups hplanes only
  have hcollision : program.collision? twoShapes (.ofSets [0] [1]) (fun _ _ _ _ ↦ true) =
      some collision := by
    rw [Program.collision?, hkeyframes, CollisionCheck.earliest?, hsolutions, hfound]
  refine ⟨program, collision, hprogram, hcollision, hreported, ?_⟩
  by_contra hclean
  have hall : ∀ solution ∈ collision.solutions, solution.faults = [] := fun solution hsolution ↦
    by_contra fun hfaulty ↦ hclean ⟨solution, hsolution, hfaulty⟩
  obtain ⟨fault, hfault, htarget⟩ := hreported
  exact (compile_collision_faults hprogram hcollision).1.mp hall fault hfault htarget

end Toolpath
