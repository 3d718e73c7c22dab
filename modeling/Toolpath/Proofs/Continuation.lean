import Toolpath.Proofs.Compilation
import Toolpath.Proofs.Substeps

/-!
Timelines cut in two. The motions to the targets of a list are those to its first part, and where
these have no faults the motions to the others from there (`journeyFrom_append`). Hence a timeline is
the timeline of its first targets, continued (`timeline_append`): later targets add to it and change
nothing.
-/

set_option autoImplicit false
set_option relaxedAutoImplicit false

namespace Toolpath

variable {α : Type} [Scalar α]

namespace Journey

/-- One journey and then another one. -/
def append (journey onward : Journey α) : Journey α where
  targets := journey.targets ++ onward.targets
  keyframes := journey.keyframes ++ onward.keyframes
  warnings := journey.warnings ++ onward.warnings
  faults := onward.faults
  total := onward.total

/-- Where the journey ends that began at the step `previous`. -/
def arrival (journey : Journey α) (previous : Step α) : Step α :=
  journey.targets.getLastD previous

/-- The journey with the motions to further targets, if it came to its end. -/
def onward (cell : Cell α) (stepSize : α) (previous : Step α) (rest : List (Step α))
    (journey : Journey α) : Except (StructureError α) (Journey α) :=
  if journey.faults.isEmpty then
    journeyFrom cell stepSize (journey.arrival previous) journey.total rest >>=
      fun further ↦ .ok (journey.append further)
  else .ok journey

/-- The journey with one more target before the others. -/
def after (target : Step α) (keyframes : List (Step α)) (warnings : List (Warning α))
    (journey : Journey α) : Journey α :=
  { journey with
    targets := target :: journey.targets
    keyframes := keyframes ++ journey.keyframes
    warnings := warnings ++ journey.warnings }

theorem onward_after (cell : Cell α) (stepSize : α) (previous : Step α) (rest : List (Step α))
    (target : Step α) (keyframes : List (Step α)) (warnings : List (Warning α))
    (journey : Journey α) :
    (journey.after target keyframes warnings).onward cell stepSize previous rest =
      journey.onward cell stepSize target rest >>=
        fun further ↦ .ok (further.after target keyframes warnings) := by
  have harrival : (journey.after target keyframes warnings).arrival previous =
      journey.arrival target := List.getLastD_cons
  have hjoined : ∀ further : Journey α,
      (journey.after target keyframes warnings).append further =
        (journey.append further).after target keyframes warnings := fun further ↦ by
    simp [append, after]
  unfold onward
  by_cases hfaults : journey.faults = []
  · have hsame : (journey.after target keyframes warnings).faults = [] := hfaults
    simp only [hfaults, hsame, List.isEmpty_nil, if_true, harrival, hjoined, bind_assoc, ok_bind]
    rfl
  · have hsame : (journey.after target keyframes warnings).faults = journey.faults := rfl
    simp only [hsame, List.isEmpty_iff, hfaults, if_false, ok_bind]

end Journey

theorem journeyFrom_append (cell : Cell α) (stepSize : α) (rest : List (Step α))
    {initial : List (Step α)} : ∀ (previous : Step α) (total : α),
      journeyFrom cell stepSize previous total (initial ++ rest) =
        journeyFrom cell stepSize previous total initial >>=
          Journey.onward cell stepSize previous rest := by
  induction initial with
  | nil =>
    intro previous total
    have hnone : ∀ further : Journey α, (⟨[], [], [], [], total⟩ : Journey α).append further = further :=
      fun _ ↦ rfl
    rw [List.nil_append, journeyFrom, ok_bind, Journey.onward]
    simp only [List.isEmpty_nil, if_true, hnone]
    exact (bind_pure _).symm
  | cons next initial ih =>
    intro previous total
    rw [List.cons_append, journeyFrom, journeyFrom, bind_assoc]
    refine bind_congr fun motion ↦ ?_
    by_cases hfaults : motion.faults = []
    · rw [if_pos (List.isEmpty_iff.mpr hfaults), if_pos (List.isEmpty_iff.mpr hfaults), ih, bind_assoc,
        bind_assoc]
      refine bind_congr fun journey ↦ ?_
      exact (journey.onward_after cell stepSize previous rest motion.target motion.keyframes
        motion.warnings).symm
    · have hfaulty : motion.faults.isEmpty = false := by simpa using hfaults
      simp only [hfaulty, Bool.false_eq_true, if_false, pure_bind, Journey.onward]
      rfl

/-- A timeline is the journey from its first target, if that has no faults. -/
theorem timeline_eq_ite (cell : Cell α) (stepSize : α) (prepared : PreparedProgram α) :
    Program.timeline cell stepSize prepared =
      if (ProgramFault.ofStep prepared.first).isEmpty then
        journeyFrom cell stepSize (keptFirst prepared.first) (keptFirst prepared.first).totalTime
          prepared.rest >>= fun onward ↦
            .ok (onward.after (keptFirst prepared.first) (startKeyframes prepared.first) [])
      else .ok ⟨[prepared.first], [prepared.first], [], ProgramFault.ofStep prepared.first, 0⟩ := by
  unfold Program.timeline journey keptFirst startKeyframes keptFirst
  dsimp only
  split_ifs <;> rfl

theorem timeline_append (cell : Cell α) (stepSize : α) (prepared : PreparedProgram α)
    (initial rest : List (Step α)) :
    Program.timeline cell stepSize { prepared with rest := initial ++ rest } =
      Program.timeline cell stepSize { prepared with rest := initial } >>=
        Journey.onward cell stepSize prepared.first rest := by
  rw [timeline_eq_ite, timeline_eq_ite]
  by_cases hfaults : ProgramFault.ofStep prepared.first = []
  · simp only [hfaults, List.isEmpty_nil, if_true, journeyFrom_append, bind_assoc, ok_bind,
      Journey.onward_after]
  · simp only [List.isEmpty_iff, hfaults, if_false, ok_bind, Journey.onward]

/-! ### The numbers in a timeline -/

/-- All that the journey holds belongs to targets whose number has the property. -/
structure Journey.Within (P : Nat → Prop) (journey : Journey α) : Prop where
  targets : ∀ step ∈ journey.targets, P step.index
  keyframes : ∀ step ∈ journey.keyframes, P step.index
  faults : ∀ fault ∈ journey.faults, P fault.target

theorem index_of_mem_substepsFrom {cell : Cell α} {previous next : Step α} {divisions : Nat}
    {substep : Substep α} {count : Nat} :
    ∀ {number : Nat} {last : Step α} {total : α} {substeps : List (Substep α)}
      {faults : List ProgramFault},
      substepsFrom cell previous next divisions count number last total = .ok (substeps, faults) →
        substep ∈ substeps → substep.step.index = next.index := by
  induction count with
  | zero =>
    intro number last total substeps faults h hmem
    obtain ⟨rfl, _⟩ := Prod.mk.inj (Except.ok.inj h)
    cases hmem
  | succ count ih =>
    intro number last total substeps faults h hmem
    obtain ⟨_, _, step, rfl, ⟨_, rest, hrest, rfl⟩ | ⟨_, rfl, _⟩⟩ := substepsFrom_succ_cases h
    · rcases List.mem_cons.mp hmem with rfl | hmem
      · rfl
      · exact ih hrest hmem
    · cases hmem

theorem index_of_mem_turningPoints {everySubstep : Bool} {substeps : List (Substep α)} {number : Nat}
    (hsubsteps : ∀ substep ∈ substeps, substep.step.index = number) :
    ∀ step ∈ turningPoints everySubstep substeps, step.index = number := by
  intro step hstep
  have hmem := (List.dropLast_sublist _).subset ((turningPoints_sublist _ _).subset hstep)
  obtain ⟨substep, hsubstep, rfl⟩ := List.mem_map.mp hmem
  exact hsubsteps substep hsubstep

theorem index_of_mem_completeTravel {cell : Cell α} {arrived : Step α} {divisions : Nat} {start : α}
    {warnings : List (Warning α)} {substeps : List (Substep α)}
    (hsubsteps : ∀ substep ∈ substeps, substep.step.index = arrived.index) :
    ∀ keyframe ∈ (completeTravel cell arrived divisions start warnings substeps).keyframes,
      keyframe.index = arrived.index := by
  have hlast : ((substeps.getLast?.map Substep.step).getD arrived).index = arrived.index := by
    cases hfinal : substeps.getLast? with
    | none => rfl
    | some final => exact hsubsteps final (List.mem_of_getLast? hfinal)
  refine forall_mem_stampDeltas (fun _ _ ↦ rfl) fun step hstep ↦ ?_
  rcases List.mem_append.mp hstep with hrow | hdwelling
  · rcases List.mem_append.mp hrow with hturn | hfinal
    · exact index_of_mem_turningPoints hsubsteps step hturn
    · rw [List.mem_singleton.mp hfinal, hlast]
  · split_ifs at hdwelling
    · rw [List.mem_singleton.mp hdwelling]
      exact hlast
    · cases hdwelling

/-- The target, the keyframes and the faults of a motion have the number of its target. -/
theorem Travelled.indices {cell : Cell α} {stepSize : α} {previous next : Step α} {start : α}
    {motion : Travel α} (h : Travelled cell stepSize previous next start motion) :
    motion.target.index = next.index ∧ (∀ keyframe ∈ motion.keyframes, keyframe.index = next.index) ∧
      ∀ fault ∈ motion.faults, fault.target = next.index := by
  have hnone : ∀ keyframe ∈ ([] : List (Step α)), keyframe.index = next.index := by simp
  cases h with
  | undefined => exact ⟨rfl, hnone, fun _ ↦ target_of_mem_undefinedStarts⟩
  | unreached => exact ⟨rfl, hnone, fun _ ↦ target_of_mem_ofStep⟩
  | completed _ _ _ hsubsteps =>
    exact ⟨rfl, index_of_mem_completeTravel fun _ ↦ index_of_mem_substepsFrom hsubsteps, by
      simp [completeTravel]⟩
  | @stopped solutions divisions substeps faults _ _ _ hsubsteps _ =>
    have hindex : ∀ substep ∈ substeps, substep.step.index = next.index := fun _ hsubstep ↦
      (index_of_mem_substepsFrom hsubsteps hsubstep).trans rfl
    refine ⟨rfl, forall_mem_stampDeltas (fun _ _ ↦ rfl) (index_of_mem_turningPoints hindex),
      fun fault hfault ↦ ?_⟩
    exact (target_of_mem_substepsFrom hsubsteps hfault).trans rfl

namespace Journey

variable {P : Nat → Prop} {cell : Cell α} {stepSize : α}

theorem within_of_journeyFrom {rest : List (Step α)} (hrest : ∀ step ∈ rest, P step.index) :
    ∀ {previous : Step α} {total : α} {journey : Journey α},
      journeyFrom cell stepSize previous total rest = .ok journey → journey.Within P := by
  induction rest with
  | nil =>
    intro previous total journey h
    obtain rfl := Except.ok.inj h
    exact ⟨by simp, by simp, by simp⟩
  | cons next rest ih =>
    intro previous total journey h
    rw [List.forall_mem_cons] at hrest
    obtain ⟨motion, hmotion, ⟨_, onward, honward, rfl⟩ | ⟨_, rfl⟩⟩ := journeyFrom_cons_cases h
    · obtain ⟨htarget, hkeyframes, _⟩ := hmotion.indices
      have hwithin := ih hrest.2 honward
      refine ⟨List.forall_mem_cons.mpr ⟨htarget ▸ hrest.1, hwithin.targets⟩,
        List.forall_mem_append.mpr ⟨fun keyframe hkeyframe ↦ ?_, hwithin.keyframes⟩,
        hwithin.faults⟩
      rw [hkeyframes keyframe hkeyframe]
      exact hrest.1
    · obtain ⟨htarget, hkeyframes, hfaults⟩ := hmotion.indices
      refine ⟨by simpa [htarget] using hrest.1, fun keyframe hkeyframe ↦ ?_, fun fault hfault ↦ ?_⟩
      · rw [hkeyframes keyframe hkeyframe]
        exact hrest.1
      · rw [hfaults fault hfault]
        exact hrest.1

theorem within_of_timeline {prepared : PreparedProgram α} {journey : Journey α}
    (hsteps : ∀ step ∈ prepared.first :: prepared.rest, P step.index)
    (h : Program.timeline cell stepSize prepared = .ok journey) : journey.Within P := by
  rw [List.forall_mem_cons] at hsteps
  have hfirst : (keptFirst prepared.first).index = prepared.first.index :=
    (Prod.mk.inj (task_keptFirst prepared.first)).1
  rcases timeline_cases h with ⟨_, rfl⟩ | ⟨_, onward, honward, rfl⟩
  · refine ⟨by simpa using hsteps.1, by simpa using hsteps.1, fun fault hfault ↦ ?_⟩
    rw [target_of_mem_ofStep hfault]
    exact hsteps.1
  · have hwithin := within_of_journeyFrom hsteps.2 honward
    have hkept : P (keptFirst prepared.first).index := hfirst ▸ hsteps.1
    refine ⟨List.forall_mem_cons.mpr ⟨hkept, hwithin.targets⟩,
      List.forall_mem_append.mpr ⟨?_, hwithin.keyframes⟩, hwithin.faults⟩
    unfold startKeyframes
    split_ifs
    · simpa using ⟨hsteps.1, hkept⟩
    · simpa using hsteps.1

/-- Targets that come later leave the earlier part of a journey as it is. -/
theorem filter_onward {n : Nat} {begun journey : Journey α} {previous : Step α}
    {rest : List (Step α)} (hbegun : begun.Within (· < n)) (hrest : ∀ step ∈ rest, n ≤ step.index)
    (h : begun.onward cell stepSize previous rest = .ok journey) :
    journey.targets.filter (·.index < n) = begun.targets ∧
      journey.keyframes.filter (·.index < n) = begun.keyframes ∧
      journey.faults.filter (·.target < n) = begun.faults := by
  have htargets : begun.targets.filter (·.index < n) = begun.targets :=
    List.filter_eq_self.mpr fun step hstep ↦ decide_eq_true (hbegun.targets step hstep)
  have hkeyframes : begun.keyframes.filter (·.index < n) = begun.keyframes :=
    List.filter_eq_self.mpr fun step hstep ↦ decide_eq_true (hbegun.keyframes step hstep)
  have hfaults : begun.faults.filter (·.target < n) = begun.faults :=
    List.filter_eq_self.mpr fun fault hfault ↦ decide_eq_true (hbegun.faults fault hfault)
  unfold onward at h
  by_cases hnone : begun.faults = []
  · rw [if_pos (List.isEmpty_iff.mpr hnone)] at h
    obtain ⟨further, hfurther, heq⟩ := bind_eq_ok_iff.mp h
    obtain rfl := Except.ok.inj heq
    have hlater := within_of_journeyFrom hrest hfurther
    have htail : further.targets.filter (·.index < n) = [] :=
      List.filter_eq_nil_iff.mpr fun step hstep ↦ by simpa using hlater.targets step hstep
    have hkeys : further.keyframes.filter (·.index < n) = [] :=
      List.filter_eq_nil_iff.mpr fun step hstep ↦ by simpa using hlater.keyframes step hstep
    have hlast : further.faults.filter (·.target < n) = [] :=
      List.filter_eq_nil_iff.mpr fun fault hfault ↦ by simpa using hlater.faults fault hfault
    refine ⟨?_, ?_, hlast.trans hnone.symm⟩
    · rw [append, List.filter_append, htargets, htail, List.append_nil]
    · rw [append, List.filter_append, hkeyframes, hkeys, List.append_nil]
  · rw [if_neg (mt List.isEmpty_iff.mp hnone)] at h
    obtain rfl := Except.ok.inj h
    exact ⟨htargets, hkeyframes, hfaults⟩

end Journey

namespace Stages

variable {cell : Cell α} {toolpaths : List (List (Target α))} {stepSize : α} {count : Nat}
  {first : Step α} {rest : List (Step α)} {solutions : List (Solution α)}
  {prepared : PreparedProgram α} {journey : Journey α}

/-- The timeline of a program begins with the timeline of its first targets. -/
theorem exists_begun (h : Stages cell toolpaths stepSize count first rest solutions prepared journey)
    (n : Nat) : ∃ begun,
      Program.timeline cell stepSize { prepared with rest := prepared.rest.take n } = .ok begun ∧
      begun.Within (· < n + 1) ∧
      journey.targets.filter (·.index < n + 1) = begun.targets ∧
      journey.keyframes.filter (·.index < n + 1) = begun.keyframes ∧
      journey.faults.filter (·.target < n + 1) = begun.faults := by
  have hindices := h.index_prepared
  have hnumber : ∀ (place : Nat) (step : Step α),
      (prepared.first :: prepared.rest)[place]? = some step → step.index = place := by
    intro place step hstep
    have hentry := congrArg (·[place]?) hindices
    rw [List.getElem?_map, hstep, Option.map_some] at hentry
    obtain ⟨_, hvalue⟩ := List.getElem?_eq_some_iff.mp hentry.symm
    rw [← hvalue, List.getElem_range]
  have htimeline := h.timeline
  have hsplit : { prepared with rest := prepared.rest.take n ++ prepared.rest.drop n } = prepared :=
    by rw [List.take_append_drop]
  rw [← hsplit, timeline_append] at htimeline
  obtain ⟨begun, hbegun, honward⟩ := bind_eq_ok_iff.mp htimeline
  have hwithin : begun.Within (· < n + 1) := by
    refine Journey.within_of_timeline (fun step hstep ↦ ?_) hbegun
    rw [← List.take_succ_cons] at hstep
    obtain ⟨place, hplace⟩ := List.mem_iff_getElem?.mp hstep
    rw [List.getElem?_take] at hplace
    split_ifs at hplace with hlt
    rw [hnumber place step hplace]
    exact hlt
  refine ⟨begun, hbegun, hwithin, Journey.filter_onward hwithin (fun step hstep ↦ ?_) honward⟩
  obtain ⟨place, hplace⟩ := List.mem_iff_getElem?.mp hstep
  rw [List.getElem?_drop, ← List.getElem?_cons_succ] at hplace
  rw [hnumber _ step hplace]
  omega

end Stages

end Toolpath
