import Toolpath.Arm.Preset
import Toolpath.Double.Scalar
import Toolpath.Proofs.Coupling.Scanning
import Toolpath.Proofs.Planes

/-!
What a solved step is. `Settled` lists the equations between the solutions of the groups: a group
whose frame is uncoupled, or coupled to the group itself, is solved on its own, and any other group
on the plane of the group that carries its frame. A solved step satisfies them (`settled_of_solve`)
and nothing else does (`Settled.eq_of_solve`).
`solve_resolves_couplings` puts the outcomes of a step together.
-/

set_option autoImplicit false
set_option relaxedAutoImplicit false

namespace Toolpath.Cell

variable {α : Type} [Scalar α]

/-- The solutions fit one another: every group is solved on the final solution of the group that
carries its frame. -/
structure Settled (cell : Cell α) (targets : List (Target α)) (previous : Option (List (List α)))
    (solutions : List (Solution α)) : Prop where
  length_eq : solutions.length = cell.groups.length
  /-- No other group carries the frame. -/
  alone : ∀ {index : Nat} {group : Group α} {target : Target α},
    cell.groups[index]? = some group → targets[index]? = some target →
    (target.frame.coupledGroup = none ∨ target.frame.coupledGroup = some index) →
      solutions[index]? =
        some (group.solve index target none (previous.bind (·[index]?)) cell.base)
  /-- The tool of another group carries the frame. -/
  onTool : ∀ {index other : Nat} {group : Group α} {target : Target α} {carrying : Solution α},
    cell.groups[index]? = some group → targets[index]? = some target →
    target.frame.coupledGroup = some other → other ≠ index →
    target.frame.coupledMechanism = none → solutions[other]? = some carrying →
      carrying.planes.getLast? = some carrying.tcp ∧ solutions[index]? =
        some (group.solve index target (some carrying.tcp) (previous.bind (·[index]?)) cell.base)
  /-- A mechanism of another group carries the frame. -/
  onMechanism : ∀ {index other place : Nat} {group carrier : Group α}
    {target carrierTarget : Target α} {carrying : Solution α},
    cell.groups[index]? = some group → targets[index]? = some target →
    target.frame.coupledGroup = some other → other ≠ index →
    target.frame.coupledMechanism = some place → cell.groups[other]? = some carrier →
    targets[other]? = some carrierTarget → solutions[other]? = some carrying →
      solutions[index]? = some (group.solve index target (carrier.mechanismTip? carrying place)
        (previous.bind (·[index]?)) cell.base) ∧
      ((∀ mechanism ∈ carrier.externals, mechanism.Complete) → ∃ moved : Solution α,
        (Group.solveMechanisms cell.base carrier.externals carrierTarget.external)[place]? =
          some moved ∧ carrier.mechanismTip? carrying place = some moved.tcp)

/-! ### The equations of a solved step -/

omit [Scalar α] in
theorem carrier?_eq_none_iff_frame {targets : List (Target α)} {index : Nat} {target : Target α}
    (htarget : targets[index]? = some target) : carrier? targets index = none ↔
      target.frame.coupledGroup = none ∨ target.frame.coupledGroup = some index := by
  rw [carrier?_eq_none_iff]
  constructor
  · intro hfree
    cases hcoupled : target.frame.coupledGroup with
    | none => exact Or.inl rfl
    | some other =>
      by_contra hne
      exact hfree other ⟨target, htarget, hcoupled, by simpa using hne⟩
  · rintro hown other ⟨held, hheld, hcoupled, hne⟩
    obtain rfl := Option.some.inj (htarget.symm.trans hheld)
    rcases hown with hnone | hself
    · simp [hnone] at hcoupled
    · exact hne (Option.some.inj (hcoupled.symm.trans hself))

omit [Scalar α] in
theorem lt_of_checkFrame_mechanism {cell : Cell α} {frame : Frame α} {index other place : Nat}
    {carrier : Group α} (h : cell.checkFrame frame index = .ok ())
    (hcoupled : frame.coupledGroup = some other) (hplace : frame.coupledMechanism = some place)
    (hcarrier : cell.groups[other]? = some carrier) : place < carrier.externals.length := by
  by_contra hle
  rw [checkFrame, hcoupled] at h
  simp only [hcarrier, hplace, Nat.le_of_not_lt hle, if_true] at h
  cases h

theorem solveGroup_eq_some_iff {cell : Cell α} {targets : List (Target α)}
    {previous : Option (List (List α))} {index : Nat} {coupled : Option (Pose α)}
    {solution : Solution α} :
    cell.solveGroup targets previous index coupled = some solution ↔ ∃ group target,
      cell.groups[index]? = some group ∧ targets[index]? = some target ∧
        group.solve index target coupled (previous.bind (·[index]?)) cell.base = solution := by
  unfold solveGroup
  cases cell.groups[index]? <;> cases targets[index]? <;> simp

theorem solveCarried_eq_some_iff {cell : Cell α} {targets : List (Target α)}
    {previous : Option (List (List α))} {index other : Nat} {carrying solution : Solution α} :
    cell.solveCarried targets previous index other carrying = some solution ↔
      ∃ carrier target, cell.groups[other]? = some carrier ∧ targets[index]? = some target ∧
        cell.solveGroup targets previous index (carrierPlane? carrier target.frame carrying) =
          some solution := by
  unfold solveCarried
  cases cell.groups[other]? <;> cases targets[index]? <;> simp

omit [Scalar α] in
theorem mem_planes_of_carrierPlane? {carrier : Group α} {frame : Frame α} {solution : Solution α}
    {plane : Pose α} (h : carrierPlane? carrier frame solution = some plane) :
    plane ∈ solution.planes := by
  unfold carrierPlane? at h
  cases hplace : frame.coupledMechanism with
  | none =>
    rw [hplace] at h
    exact List.mem_of_getLast? h
  | some mechanism =>
    rw [hplace] at h
    obtain ⟨place, _, hplane⟩ := Option.bind_eq_some_iff.mp h
    exact List.mem_of_getElem? hplane

section Solved

variable {cell : Cell α} {targets : List (Target α)} {previous : Option (List (List α))}
  {solutions : List (Solution α)}

theorem getElem?_of_solve_alone (hcount : targets.length = cell.groups.length)
    (hframes : cell.checkFrames targets = .ok ())
    (hsolve : cell.solve targets previous = .ok solutions) {index : Nat}
    (hindex : index < cell.groups.length) (hfree : carrier? targets index = none) :
    solutions[index]? = cell.solveGroup targets previous index none := by
  obtain ⟨hlength, hall⟩ := (solve_eq_ok_iff cell hcount hframes previous).mp hsolve
  have hentry := hall index hindex
  rw [List.getElem?_eq_getElem (hlength ▸ hindex)] at hentry ⊢
  rw [← solveAfter_succ_free cell previous _ hfree,
    solveAfter_succ_of_eq_some cell targets previous hentry]

theorem getElem?_of_solve_carried (hcount : targets.length = cell.groups.length)
    (hframes : cell.checkFrames targets = .ok ())
    (hsolve : cell.solve targets previous = .ok solutions) {index other : Nat}
    (hindex : index < cell.groups.length) (hcarrier : carrier? targets index = some other) :
    solutions[index]? =
      solutions[other]?.bind (cell.solveCarried targets previous index other) := by
  obtain ⟨hlength, hall⟩ := (solve_eq_ok_iff cell hcount hframes previous).mp hsolve
  have hentry := hall index hindex
  have hother := hall other ((carrier?_eq_some_iff.mp hcarrier).lt hframes)
  rw [List.getElem?_eq_getElem (hlength ▸ hindex)] at hentry ⊢
  rw [← hother, ← solveAfter_succ_carried cell previous _ hcarrier,
    solveAfter_succ_of_eq_some cell targets previous hentry]

/-- Every solution of a solved step is the solution of its group for its target, on no plane but
one of another solution. -/
theorem exists_solve_of_getElem? (hcount : targets.length = cell.groups.length)
    (hframes : cell.checkFrames targets = .ok ())
    (hsolve : cell.solve targets previous = .ok solutions) {index : Nat} {solution : Solution α}
    (hsolution : solutions[index]? = some solution) :
    ∃ group target coupled, cell.groups[index]? = some group ∧ targets[index]? = some target ∧
      group.solve index target coupled (previous.bind (·[index]?)) cell.base = solution ∧
      ∀ plane ∈ coupled, ∃ carrying ∈ solutions, plane ∈ carrying.planes := by
  have hlength := ((solve_eq_ok_iff cell hcount hframes previous).mp hsolve).1
  obtain ⟨hlt, _⟩ := List.getElem?_eq_some_iff.mp hsolution
  have hindex : index < cell.groups.length := hlength ▸ hlt
  cases hcarrier : carrier? targets index with
  | none =>
    rw [getElem?_of_solve_alone hcount hframes hsolve hindex hcarrier] at hsolution
    obtain ⟨group, target, hgroup, htarget, hsolved⟩ := solveGroup_eq_some_iff.mp hsolution
    exact ⟨group, target, none, hgroup, htarget, hsolved, by simp⟩
  | some other =>
    rw [getElem?_of_solve_carried hcount hframes hsolve hindex hcarrier] at hsolution
    obtain ⟨carrying, hcarrying, hcarried⟩ := Option.bind_eq_some_iff.mp hsolution
    obtain ⟨_, _, _, _, hsolved⟩ := solveCarried_eq_some_iff.mp hcarried
    obtain ⟨group, target, hgroup, htarget, hsolved⟩ := solveGroup_eq_some_iff.mp hsolved
    exact ⟨group, target, _, hgroup, htarget, hsolved, fun plane hplane ↦
      ⟨carrying, List.mem_of_getElem? hcarrying, mem_planes_of_carrierPlane? hplane⟩⟩

/-- Every group of a solved step is solved for a target. -/
theorem exists_solve_of_group (hsolve : cell.solve targets previous = .ok solutions) {index : Nat}
    {group : Group α} (hgroup : cell.groups[index]? = some group) :
    ∃ target coupled, targets[index]? = some target ∧ solutions[index]? =
      some (group.solve index target coupled (previous.bind (·[index]?)) cell.base) := by
  obtain ⟨hcount, hframes⟩ := checked_of_solve hsolve
  have hlength := ((solve_eq_ok_iff cell hcount hframes previous).mp hsolve).1
  obtain ⟨hindex, _⟩ := List.getElem?_eq_some_iff.mp hgroup
  have hsolution := List.getElem?_eq_getElem (hlength ▸ hindex : index < solutions.length)
  obtain ⟨held, target, coupled, hheld, htarget, hsolved, _⟩ :=
    exists_solve_of_getElem? hcount hframes hsolve hsolution
  obtain rfl := Option.some.inj (hgroup.symm.trans hheld)
  exact ⟨target, coupled, htarget, hsolved ▸ hsolution⟩

/-- The solutions of a solved step satisfy the coupling equations. -/
theorem settled_of_solve (hcount : targets.length = cell.groups.length)
    (hframes : cell.checkFrames targets = .ok ())
    (hsolve : cell.solve targets previous = .ok solutions) :
    Settled cell targets previous solutions where
  length_eq := ((solve_eq_ok_iff cell hcount hframes previous).mp hsolve).1
  alone := by
    intro index group target hgroup htarget hown
    obtain ⟨hindex, _⟩ := List.getElem?_eq_some_iff.mp hgroup
    rw [getElem?_of_solve_alone hcount hframes hsolve hindex
      ((carrier?_eq_none_iff_frame htarget).mpr hown), solveGroup, hgroup, htarget]
  onTool := by
    intro index other group target carrying hgroup htarget hcoupled hne hnone hcarrying
    have hlast : carrying.planes.getLast? = some carrying.tcp := by
      obtain ⟨_, _, _, _, _, rfl, _⟩ :=
        exists_solve_of_getElem? hcount hframes hsolve hcarrying
      exact Group.planes_getLast? _ _ _ _ _ _
    have hcarrier : carrier? targets index = some other :=
      carrier?_eq_some_iff.mpr ⟨target, htarget, hcoupled, hne⟩
    have hother := (carrier?_eq_some_iff.mp hcarrier).lt hframes
    obtain ⟨hindex, _⟩ := List.getElem?_eq_some_iff.mp hgroup
    refine ⟨hlast, ?_⟩
    rw [getElem?_of_solve_carried hcount hframes hsolve hindex hcarrier, hcarrying,
      Option.bind_some, solveCarried, List.getElem?_eq_getElem hother, htarget]
    simp only [carrierPlane?, hnone, hlast, solveGroup, hgroup, htarget]
  onMechanism := by
    intro index other place group carrier target carrierTarget carrying hgroup htarget hcoupled
      hne hplace hcarrier hcarrierTarget hcarrying
    have hfollows : carrier? targets index = some other :=
      carrier?_eq_some_iff.mpr ⟨target, htarget, hcoupled, hne⟩
    obtain ⟨hindex, _⟩ := List.getElem?_eq_some_iff.mp hgroup
    refine ⟨?_, fun hcomplete ↦ ?_⟩
    · rw [getElem?_of_solve_carried hcount hframes hsolve hindex hfollows, hcarrying,
        Option.bind_some, solveCarried, hcarrier, htarget]
      simp only [carrierPlane?, Group.mechanismTip?, hplace, solveGroup, hgroup, htarget]
    · have hchecked := checkFrames_eq_ok_iff.mp hframes index target htarget
      have hlt := lt_of_checkFrame_mechanism hchecked hcoupled hplace hcarrier
      have hmoved : place < (Group.solveMechanisms cell.base carrier.externals
          carrierTarget.external).length := by rwa [Group.length_solveMechanisms]
      obtain ⟨held, solved, _, hheld, hsolved, rfl, _⟩ :=
        exists_solve_of_getElem? hcount hframes hsolve hcarrying
      obtain rfl := Option.some.inj (hcarrier.symm.trans hheld)
      obtain rfl := Option.some.inj (hcarrierTarget.symm.trans hsolved)
      exact ⟨_, List.getElem?_eq_getElem hmoved,
        Group.mechanismTip?_solve hcomplete _ _ _ _ _ (List.getElem?_eq_getElem hmoved)⟩

/-- Whatever satisfies the coupling equations holds every solution that following the couplings
finds. -/
theorem Settled.getElem?_of_solveAfter (hcount : targets.length = cell.groups.length)
    (hsettled : Settled cell targets previous solutions) {links : Nat} :
    ∀ {index : Nat} {solution : Solution α},
      cell.solveAfter targets previous links index = some solution →
        solutions[index]? = some solution := by
  induction links with
  | zero => intro index solution h; simp [solveAfter] at h
  | succ links ih =>
    intro index solution h
    cases hcarrier : carrier? targets index with
    | none =>
      rw [solveAfter_succ_free cell previous links hcarrier] at h
      obtain ⟨group, target, hgroup, htarget, rfl⟩ := solveGroup_eq_some_iff.mp h
      exact hsettled.alone hgroup htarget ((carrier?_eq_none_iff_frame htarget).mp hcarrier)
    | some other =>
      rw [solveAfter_succ_carried cell previous links hcarrier] at h
      obtain ⟨carrying, hafter, hcarried⟩ := Option.bind_eq_some_iff.mp h
      obtain ⟨carrier, target, hgroups, htarget, hsolved⟩ := solveCarried_eq_some_iff.mp hcarried
      obtain ⟨group, held, hgroup, hheld, rfl⟩ := solveGroup_eq_some_iff.mp hsolved
      obtain rfl := Option.some.inj (htarget.symm.trans hheld)
      obtain ⟨followed, hfollowed, hcoupled, hne⟩ := carrier?_eq_some_iff.mp hcarrier
      obtain rfl := Option.some.inj (htarget.symm.trans hfollowed)
      cases hplace : target.frame.coupledMechanism with
      | none =>
        obtain ⟨hlast, hequation⟩ :=
          hsettled.onTool hgroup htarget hcoupled hne hplace (ih hafter)
        rw [hequation, carrierPlane?, hplace, hlast]
      | some place =>
        obtain ⟨hlt, _⟩ := List.getElem?_eq_some_iff.mp hgroups
        have hother := List.getElem?_eq_getElem (hcount ▸ hlt : other < targets.length)
        obtain ⟨hequation, _⟩ :=
          hsettled.onMechanism hgroup htarget hcoupled hne hplace hgroups hother (ih hafter)
        rw [hequation, carrierPlane?, hplace, Group.mechanismTip?]

/-- Without a loop only one list of solutions satisfies the coupling equations. -/
theorem Settled.eq_of_solve (hcount : targets.length = cell.groups.length)
    (hframes : cell.checkFrames targets = .ok ())
    (hsolve : cell.solve targets previous = .ok solutions) {others : List (Solution α)}
    (hothers : Settled cell targets previous others) : others = solutions := by
  obtain ⟨hlength, hall⟩ := (solve_eq_ok_iff cell hcount hframes previous).mp hsolve
  have hsame : others.length = solutions.length := hothers.length_eq.trans hlength.symm
  refine List.ext_getElem hsame fun index _ hindex ↦ ?_
  have hafter := hall index (hlength ▸ hindex)
  rw [List.getElem?_eq_getElem hindex] at hafter
  have hentry := hothers.getElem?_of_solveAfter hcount hafter
  exact (List.getElem?_eq_some_iff.mp hentry).2

end Solved

/-! ### The outcomes of a step -/

/-- A step whose frames can be placed fails exactly where the couplings run in a loop. Elsewhere it
has one solution per group, the only one that satisfies the coupling equations; and however the
groups are scanned, the outcome is the same. -/
theorem solve_resolves_couplings (cell : Cell α) {targets : List (Target α)}
    (hcount : targets.length = cell.groups.length) (hframes : cell.checkFrames targets = .ok ())
    (previous : Option (List (List α))) :
    (cell.solve targets previous = .error (.coupling .loop) ↔ HasLoop targets) ∧
    (¬ HasLoop targets → ∃ solutions, cell.solve targets previous = .ok solutions ∧
      Settled cell targets previous solutions ∧
      ∀ others, Settled cell targets previous others → others = solutions) ∧
    ∀ order : List Nat, order.Perm (List.range cell.groups.length) →
      cell.solveInOrder order targets previous = cell.solve targets previous := by
  refine ⟨solve_eq_loop_iff cell hcount hframes previous, fun hnone ↦ ?_, fun order horder ↦
    solveInOrder_eq_solve_of_placed cell hcount hframes previous horder⟩
  obtain ⟨solutions, hsolve⟩ := exists_solve_of_not_hasLoop cell hcount hframes previous hnone
  exact ⟨solutions, hsolve, settled_of_solve hcount hframes hsolve,
    fun _ hothers ↦ Settled.eq_of_solve hcount hframes hsolve hothers⟩

/-- Two arms that hand a part over. -/
def handover : Cell Float :=
  ⟨"Handover", 1, [⟨.irb120, []⟩, ⟨.irb120, []⟩]⟩

/-- The second arm works in a frame on the tool of the first one. -/
def handoverTargets : List (Target Float) :=
  [.ofGoal (.joints []), { Target.ofGoal (.cartesian 1 none .linear) with
    frame := ⟨⟨.authored 0, "Part"⟩, 1, some 0, none⟩ }]

theorem solve_resolves_handover :
    handoverTargets.length = handover.groups.length ∧
    handover.checkFrames handoverTargets = .ok () ∧ ¬ HasLoop handoverTargets ∧
    ∃ solutions, handover.solve handoverTargets none = .ok solutions ∧
      Settled handover handoverTargets none solutions ∧
      handover.solveInOrder [1, 0] handoverTargets none = .ok solutions := by
  have hframes : handover.checkFrames handoverTargets = .ok () := rfl
  have hnone : ¬ HasLoop handoverTargets := by
    refine not_hasLoop_of_lt fun group carrier ⟨target, htarget, hcoupled, hne⟩ ↦ ?_
    match group, htarget with
    | 0, htarget => obtain rfl := Option.some.inj htarget; cases hcoupled
    | 1, htarget =>
      obtain rfl := Option.some.inj htarget
      obtain rfl : 0 = carrier := Option.some.inj hcoupled
      exact Nat.zero_lt_one
  obtain ⟨_, hsettles, horders⟩ := solve_resolves_couplings handover rfl hframes none
  obtain ⟨solutions, hsolve, hsettled, _⟩ := hsettles hnone
  have hswapped : [1, 0].Perm (List.range handover.groups.length) := List.Perm.swap 0 1 []
  exact ⟨rfl, hframes, hnone, solutions, hsolve, hsettled, (horders _ hswapped).trans hsolve⟩

end Toolpath.Cell
