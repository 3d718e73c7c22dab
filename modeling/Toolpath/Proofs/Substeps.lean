import Toolpath.Proofs.Sequencing
import Toolpath.Proofs.Steps

/-!
The substeps of a motion one by one. `substepsFrom_succ_cases` says what solving the next substep
can come to; by induction over the substeps, a motion without faults has all of them
(`length_of_substepsFrom`), every one of them is solved from the step before it
(`exists_solvedFrom`), and whatever faults the motion has belong to its target. The keyframes of a
motion are taken from its substeps (`turningPoints_sublist`) and change in nothing but their times
(`map_stampDeltas`).
-/

set_option autoImplicit false
set_option relaxedAutoImplicit false

namespace Toolpath

variable {α : Type} [Scalar α]

/-- The next substep before it has its time. -/
def substepAt (next last : Step α) (targets : List (Target α)) (solutions : List (Solution α)) :
    Step α :=
  (next.withTargets targets).withSolutions solutions (some last)

section SubstepAt

variable {next last : Step α} {targets : List (Target α)} {solutions : List (Solution α)}
  (htargets : targets.length = next.waypoints.length)
  (hsolutions : solutions.length = next.waypoints.length)

include htargets hsolutions

omit [Scalar α] in
theorem length_waypoints_substepAt :
    (substepAt next last targets solutions).waypoints.length = next.waypoints.length := by
  have hasked := Step.length_waypoints_withTargets htargets
  rw [substepAt, Step.length_waypoints_withSolutions _ (hsolutions.trans hasked.symm), hasked]

omit [Scalar α] in
theorem targets_substepAt : (substepAt next last targets solutions).targets = targets := by
  have hasked := Step.length_waypoints_withTargets htargets
  rw [substepAt, Step.targets_withSolutions _ (hsolutions.trans hasked.symm),
    Step.targets_withTargets htargets]

omit [Scalar α] in
theorem solutions_substepAt : (substepAt next last targets solutions).solutions = solutions := by
  have hasked := Step.length_waypoints_withTargets htargets
  exact Step.solutions_withSolutions _ (hsolutions.trans hasked.symm)

end SubstepAt

/-- The next substep with its time. -/
def clockedSubstep (cell : Cell α) (divisions : Nat) (last step : Step α) (total : α) : Substep α :=
  let paces := cell.paces last step divisions
  let duration := Scalar.maximum (paces.map Pace.time)
  ⟨{ step with totalTime := total + duration }, paces, duration⟩

/-- The next substep is solved, and where it has no faults the others after it. -/
theorem substepsFrom_succ (cell : Cell α) (previous next last : Step α)
    (divisions count number : Nat) (total : α) :
    substepsFrom cell previous next divisions (count + 1) number last total =
      cell.solve (next.between previous cell (.ofParts number divisions)) (some last.joints) >>=
        fun solutions ↦
          let step := substepAt next last (next.between previous cell (.ofParts number divisions))
            solutions
          let substep := clockedSubstep cell divisions last step total
          if (ProgramFault.ofStep step).isEmpty then
            substepsFrom cell previous next divisions count (number + 1) substep.step
              substep.step.totalTime >>= fun result ↦ .ok (substep :: result.1, result.2)
          else .ok ([], ProgramFault.ofStep step) :=
  rfl

/-- A substep without faults is the first one of those that follow, a substep with faults ends the
motion. -/
theorem substepsFrom_succ_cases {cell : Cell α} {previous next last : Step α}
    {divisions count number : Nat} {total : α} {substeps : List (Substep α)}
    {faults : List ProgramFault}
    (h : substepsFrom cell previous next divisions (count + 1) number last total =
      .ok (substeps, faults)) :
    ∃ solutions, cell.solve (next.between previous cell (.ofParts number divisions))
        (some last.joints) = .ok solutions ∧
      ∃ step, step = substepAt next last (next.between previous cell (.ofParts number divisions))
        solutions ∧
      ((ProgramFault.ofStep step = [] ∧ ∃ rest,
        substepsFrom cell previous next divisions count (number + 1)
          (clockedSubstep cell divisions last step total).step
          (clockedSubstep cell divisions last step total).step.totalTime = .ok (rest, faults) ∧
        substeps = clockedSubstep cell divisions last step total :: rest) ∨
      (ProgramFault.ofStep step ≠ [] ∧ substeps = [] ∧ faults = ProgramFault.ofStep step)) := by
  unfold substepsFrom at h
  obtain ⟨solutions, hsolve, h⟩ := bind_eq_ok_iff.mp h
  refine ⟨solutions, hsolve, _, rfl, ?_⟩
  by_cases hfaults : ProgramFault.ofStep (substepAt next last
      (next.between previous cell (.ofParts number divisions)) solutions) = []
  · refine Or.inl ⟨hfaults, ?_⟩
    unfold substepAt at hfaults
    simp only [hfaults, List.isEmpty_nil, if_true] at h
    obtain ⟨⟨rest, others⟩, hrest, h⟩ := bind_eq_ok_iff.mp h
    obtain ⟨rfl, rfl⟩ := Prod.mk.inj (Except.ok.inj h)
    exact ⟨rest, hrest, rfl⟩
  · refine Or.inr ⟨hfaults, ?_⟩
    unfold substepAt at hfaults ⊢
    simp only [List.isEmpty_iff, hfaults, if_false] at h
    obtain ⟨rfl, rfl⟩ := Prod.mk.inj (Except.ok.inj h)
    exact ⟨rfl, rfl⟩

/-- A motion without faults has all of its substeps. -/
theorem length_of_substepsFrom {cell : Cell α} {previous next : Step α} {divisions : Nat}
    {count : Nat} : ∀ {number : Nat} {last : Step α} {total : α} {substeps : List (Substep α)},
      substepsFrom cell previous next divisions count number last total = .ok (substeps, []) →
        substeps.length = count := by
  induction count with
  | zero =>
    intro number last total substeps h
    obtain ⟨rfl, _⟩ := Prod.mk.inj (Except.ok.inj h)
    rfl
  | succ count ih =>
    intro number last total substeps h
    obtain ⟨_, _, step, _, ⟨_, rest, hrest, rfl⟩ | ⟨hfaults, _, hnil⟩⟩ := substepsFrom_succ_cases h
    · rw [List.length_cons, ih hrest]
    · exact absurd hnil.symm hfaults

omit [Scalar α] in
theorem target_of_mem_ofStep {step : Step α} {fault : ProgramFault}
    (h : fault ∈ ProgramFault.ofStep step) : fault.target = step.index := by
  obtain ⟨_, _, rfl⟩ := List.mem_map.mp h
  rfl

omit [Scalar α] in
theorem exists_of_mem_undefinedStarts {next previous : Step α} {fault : ProgramFault}
    (h : fault ∈ next.undefinedStarts previous) :
    ∃ group, fault = .undefinedStart next.index group := by
  obtain ⟨⟨⟨waypoint, before⟩, group⟩, _, hfault⟩ := List.mem_filterMap.mp h
  dsimp only at hfault
  split_ifs at hfault
  exact ⟨group, (Option.some.inj hfault).symm⟩

omit [Scalar α] in
theorem target_of_mem_undefinedStarts {next previous : Step α} {fault : ProgramFault}
    (h : fault ∈ next.undefinedStarts previous) : fault.target = next.index := by
  obtain ⟨group, rfl⟩ := exists_of_mem_undefinedStarts h
  rfl

omit [Scalar α] in
theorem group_lt_of_mem_ofStep {step : Step α} {fault : ProgramFault}
    (h : fault ∈ ProgramFault.ofStep step) : fault.group < step.waypoints.length := by
  obtain ⟨⟨group, _⟩, hentry, rfl⟩ := List.mem_map.mp h
  obtain ⟨⟨waypoint, place⟩, hplace, hfault⟩ := List.mem_flatMap.mp hentry
  obtain ⟨_, _, heq⟩ := List.mem_map.mp hfault
  obtain ⟨rfl, _⟩ := Prod.mk.inj heq
  exact List.snd_lt_of_mem_zipIdx hplace

omit [Scalar α] in
theorem group_lt_of_mem_undefinedStarts {next previous : Step α} {fault : ProgramFault}
    (h : fault ∈ next.undefinedStarts previous) : fault.group < next.waypoints.length := by
  obtain ⟨⟨⟨waypoint, before⟩, group⟩, hgroup, hfault⟩ := List.mem_filterMap.mp h
  have hlt := List.snd_lt_of_mem_zipIdx hgroup
  dsimp only at hfault
  split_ifs at hfault
  obtain rfl := Option.some.inj hfault
  exact hlt.trans_le (List.length_zip.trans_le (Nat.min_le_left _ _))

omit [Scalar α] in
@[simp] theorem ofStep_eq_nil_iff {step : Step α} :
    ProgramFault.ofStep step = [] ↔ step.faults = [] :=
  List.map_eq_nil_iff

/-! ### Where a substep comes from -/

/-- The substep with the given number is solved without faults from the step before it, and takes
as long as the slowest group. -/
structure SolvedFrom (cell : Cell α) (previous next : Step α) (divisions number : Nat)
    (before : Step α) (substep : Substep α) : Prop where
  index : substep.step.index = next.index
  targets : substep.step.targets = next.between previous cell (.ofParts number divisions)
  solve : cell.solve substep.step.targets (some before.joints) = .ok substep.step.solutions
  faultless : substep.step.faults = []
  duration : substep.duration =
    Scalar.maximum ((cell.paces before substep.step divisions).map Pace.time)
  total : substep.step.totalTime = before.totalTime + substep.duration

theorem solvedFrom_clockedSubstep {cell : Cell α} {previous next before : Step α}
    {divisions number : Nat} {solutions : List (Solution α)}
    (hcount : next.waypoints.length = cell.groups.length)
    (hsolve : cell.solve (next.between previous cell (.ofParts number divisions))
      (some before.joints) = .ok solutions)
    (hfaults : ProgramFault.ofStep (substepAt next before
      (next.between previous cell (.ofParts number divisions)) solutions) = []) :
    SolvedFrom cell previous next divisions number before (clockedSubstep cell divisions before
      (substepAt next before (next.between previous cell (.ofParts number divisions)) solutions)
      before.totalTime) := by
  obtain ⟨htargets, hsolutions⟩ := Cell.length_of_solve hsolve
  rw [← hcount] at htargets hsolutions
  have hasked : (substepAt next before (next.between previous cell (.ofParts number divisions))
    solutions).targets = _ := targets_substepAt htargets hsolutions
  have hanswer : (substepAt next before (next.between previous cell (.ofParts number divisions))
    solutions).solutions = _ := solutions_substepAt htargets hsolutions
  refine ⟨rfl, hasked, ?_, ofStep_eq_nil_iff.mp hfaults, rfl, rfl⟩
  exact (congrArg₂ (fun targets answer ↦
    cell.solve targets (some before.joints) = .ok answer) hasked hanswer).mpr hsolve

/-- Every substep is solved from the step before it, the first one from the start. -/
theorem exists_solvedFrom {cell : Cell α} {previous next : Step α} {divisions count : Nat}
    (hcount : next.waypoints.length = cell.groups.length) :
    ∀ {number : Nat} {last : Step α} {substeps : List (Substep α)} {faults : List ProgramFault},
      substepsFrom cell previous next divisions count number last last.totalTime =
        .ok (substeps, faults) →
      ∀ {place : Nat} {substep : Substep α}, substeps[place]? = some substep →
        ∃ before, (last :: substeps.map Substep.step)[place]? = some before ∧
          SolvedFrom cell previous next divisions (number + place) before substep := by
  induction count with
  | zero =>
    intro number last substeps faults h place substep hsubstep
    obtain ⟨rfl, _⟩ := Prod.mk.inj (Except.ok.inj h)
    cases hsubstep
  | succ count ih =>
    intro number last substeps faults h place substep hsubstep
    obtain ⟨solutions, hsolve, step, rfl, ⟨hfaults, rest, hrest, rfl⟩ | ⟨_, rfl, _⟩⟩ :=
      substepsFrom_succ_cases h
    · cases place with
      | zero =>
        obtain rfl := Option.some.inj hsubstep
        exact ⟨last, rfl, solvedFrom_clockedSubstep hcount hsolve hfaults⟩
      | succ place =>
        obtain ⟨before, hbefore, hsolved⟩ := ih hrest hsubstep
        rw [Nat.add_right_comm, Nat.add_assoc] at hsolved
        exact ⟨before, hbefore, hsolved⟩
    · cases hsubstep

theorem exists_solvedFrom_of_mem {cell : Cell α} {previous next last : Step α}
    {divisions count number : Nat} {substeps : List (Substep α)} {faults : List ProgramFault}
    (hcount : next.waypoints.length = cell.groups.length)
    (h : substepsFrom cell previous next divisions count number last last.totalTime =
      .ok (substeps, faults)) {substep : Substep α} (hsubstep : substep ∈ substeps) :
    ∃ place before, SolvedFrom cell previous next divisions (number + place) before substep := by
  obtain ⟨place, hplace⟩ := List.mem_iff_getElem?.mp hsubstep
  obtain ⟨before, _, hsolved⟩ := exists_solvedFrom hcount h hplace
  exact ⟨place, before, hsolved⟩

/-! ### Faults -/

/-- A motion whose groups can be solved without faults from any solutions with the property `P`, to
solutions that have it again, has no substep with a fault, and every substep has the property. -/
theorem substepsFrom_of_solved {cell : Cell α} {previous next : Step α} {divisions : Nat}
    (hcount : next.waypoints.length = cell.groups.length) {P : List (Solution α) → Prop}
    (hsolved : ∀ {number : Nat} {before after : List (Solution α)}, number ≤ divisions → P before →
      cell.solve (next.between previous cell (.ofParts number divisions))
        (some (before.map Solution.joints)) = .ok after →
      (∀ solution ∈ after, solution.faults = []) ∧ P after)
    {count : Nat} :
    ∀ {number : Nat} {last : Step α} {total : α} {substeps : List (Substep α)}
      {faults : List ProgramFault}, P last.solutions → number + count ≤ divisions + 1 →
      substepsFrom cell previous next divisions count number last total = .ok (substeps, faults) →
        faults = [] ∧ ∀ substep ∈ substeps, P substep.step.solutions := by
  induction count with
  | zero =>
    intro number last total substeps faults _ _ h
    obtain ⟨rfl, rfl⟩ := Prod.mk.inj (Except.ok.inj h)
    exact ⟨rfl, List.forall_mem_nil _⟩
  | succ count ih =>
    intro number last total substeps faults hlast hle h
    obtain ⟨solutions, hsolve, step, hstep, hcases⟩ := substepsFrom_succ_cases h
    obtain ⟨hasked, hfound⟩ := Cell.length_of_solve hsolve
    rw [last.joints_eq] at hsolve
    obtain ⟨hclean, hkept⟩ := hsolved (by omega) hlast hsolve
    have hsolutions : step.solutions = solutions :=
      hstep ▸ solutions_substepAt (hasked.trans hcount.symm) (hfound.trans hcount.symm)
    rcases hcases with ⟨_, rest, hrest, rfl⟩ | ⟨hfaults, _, _⟩
    · have hnow : P (clockedSubstep cell divisions last step total).step.solutions :=
        hsolutions.symm ▸ hkept
      obtain ⟨hnone, hevery⟩ := ih hnow (by omega : number + 1 + count ≤ divisions + 1) hrest
      exact ⟨hnone, List.forall_mem_cons.mpr ⟨hnow, hevery⟩⟩
    · exact absurd (ofStep_eq_nil_iff.mpr (Step.faults_eq_nil (hsolutions ▸ hclean))) hfaults

/-- The faults of a motion are faults of its target. -/
theorem target_of_mem_substepsFrom {cell : Cell α} {previous next : Step α} {divisions : Nat}
    {fault : ProgramFault} {count : Nat} :
    ∀ {number : Nat} {last : Step α} {total : α} {substeps : List (Substep α)}
      {faults : List ProgramFault},
      substepsFrom cell previous next divisions count number last total = .ok (substeps, faults) →
        fault ∈ faults → fault.target = next.index := by
  induction count with
  | zero =>
    intro number last total substeps faults h hmem
    obtain ⟨_, rfl⟩ := Prod.mk.inj (Except.ok.inj h)
    cases hmem
  | succ count ih =>
    intro number last total substeps faults h hmem
    obtain ⟨_, _, step, rfl, ⟨_, rest, hrest, _⟩ | ⟨_, _, rfl⟩⟩ := substepsFrom_succ_cases h
    · exact ih hrest hmem
    · exact (target_of_mem_ofStep hmem).trans rfl

theorem group_lt_of_mem_substepsFrom {cell : Cell α} {previous next : Step α} {divisions : Nat}
    {fault : ProgramFault} (hcount : next.waypoints.length = cell.groups.length) {count : Nat} :
    ∀ {number : Nat} {last : Step α} {total : α} {substeps : List (Substep α)}
      {faults : List ProgramFault},
      substepsFrom cell previous next divisions count number last total = .ok (substeps, faults) →
        fault ∈ faults → fault.group < cell.groups.length := by
  induction count with
  | zero =>
    intro number last total substeps faults h hmem
    obtain ⟨_, rfl⟩ := Prod.mk.inj (Except.ok.inj h)
    cases hmem
  | succ count ih =>
    intro number last total substeps faults h hmem
    obtain ⟨_, hsolve, step, rfl, ⟨_, rest, hrest, _⟩ | ⟨_, _, rfl⟩⟩ := substepsFrom_succ_cases h
    · exact ih hrest hmem
    · obtain ⟨htargets, hsolutions⟩ := Cell.length_of_solve hsolve
      rw [← hcount] at htargets hsolutions ⊢
      rw [← length_waypoints_substepAt htargets hsolutions]
      exact group_lt_of_mem_ofStep hmem

/-! ### Keyframes -/

/-- Stamping changes nothing but the time since the step before. -/
theorem map_stampDeltas {β : Type} {f : Step α → β}
    (hf : ∀ (step : Step α) (delta : α), f { step with deltaTime := delta } = f step)
    {steps : List (Step α)} :
    ∀ start : α, (stampDeltas start steps).map f = steps.map f := by
  induction steps with
  | nil => intro start; rfl
  | cons step rest ih => intro start; rw [stampDeltas, List.map_cons, List.map_cons, hf, ih]

@[simp] theorem length_stampDeltas (start : α) (steps : List (Step α)) :
    (stampDeltas start steps).length = steps.length := by
  induction steps generalizing start with
  | nil => rfl
  | cons step rest ih => rw [stampDeltas, List.length_cons, List.length_cons, ih]

/-- What stamping keeps holds of the keyframes where it holds of the steps. -/
theorem forall_mem_stampDeltas {β : Type} {f : Step α → β}
    (hf : ∀ (step : Step α) (delta : α), f { step with deltaTime := delta } = f step)
    {steps : List (Step α)} {start : α} {value : β} (hsteps : ∀ step ∈ steps, f step = value) :
    ∀ keyframe ∈ stampDeltas start steps, f keyframe = value := by
  intro keyframe hkeyframe
  have hmem := List.mem_map_of_mem (f := f) hkeyframe
  rw [map_stampDeltas hf] at hmem
  obtain ⟨step, hstep, heq⟩ := List.mem_map.mp hmem
  rw [← heq, hsteps step hstep]

/-- The last substep is no turning point. -/
theorem turningPoints_sublist (everySubstep : Bool) (substeps : List (Substep α)) :
    (turningPoints everySubstep substeps).Sublist (substeps.map Substep.step).dropLast := by
  fun_induction turningPoints everySubstep substeps with
  | case1 first second rest _ ih => exact ih.cons_cons first.step
  | case2 first second rest _ ih => exact ih.cons first.step
  | case3 => exact List.nil_sublist _

/-- Where every substep is asked for, they are all but the last one. -/
theorem turningPoints_true (substeps : List (Substep α)) :
    turningPoints true substeps = (substeps.map Substep.step).dropLast := by
  induction substeps with
  | nil => rfl
  | cons first rest ih =>
    cases rest with
    | nil => rfl
    | cons second rest =>
      rw [turningPoints, Bool.true_or, if_pos rfl, ih]
      rfl

/-- The turning points of a motion with its last substep. -/
theorem turningPoints_concat_sublist (everySubstep : Bool) (substeps : List (Substep α))
    (final : Substep α) :
    (turningPoints everySubstep (substeps ++ [final]) ++ [final.step]).Sublist
      ((substeps ++ [final]).map Substep.step) := by
  have hsublist := turningPoints_sublist everySubstep (substeps ++ [final])
  rw [List.map_append, List.map_singleton, List.dropLast_concat] at hsublist
  rw [List.map_append, List.map_singleton]
  exact hsublist.append_right _

end Toolpath
