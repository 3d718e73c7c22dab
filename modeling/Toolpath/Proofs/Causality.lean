import Toolpath.Proofs.Attributes
import Toolpath.Proofs.Exact.JointMotion
import Toolpath.Proofs.Recasting

/-!
Later targets never change earlier motion. Names are given to the attributes of a whole program, so
that one more target may rename attributes in all targets before it; but motions read the instance
of an attribute and not its name (`Recast.faithful_withoutNames`). Two programs whose targets agree
up to an index therefore agree, apart from names, in all that they hold up to that index
(`compile_causal`).
-/

set_option autoImplicit false
set_option relaxedAutoImplicit false

namespace Toolpath

variable {α : Type}

/-! ### Without names -/

/-- The new label of every attribute: its instance without a name. -/
def withoutNames : Relabelling := fun _ label ↦ label.rename ""

/-- The step as it is apart from the names of its attributes. -/
def Step.withoutNames (step : Step α) : Step α :=
  step.mapTargets fun _ ↦ Target.relabel Toolpath.withoutNames

namespace CouplingError

/-- The error without the name of the frame. -/
def withoutName : CouplingError → CouplingError
  | mechanismWithoutGroup _ => mechanismWithoutGroup ""
  | unknownGroup _ group groupCount => unknownGroup "" group groupCount
  | unknownMechanism _ mechanism group mechanismCount =>
    unknownMechanism "" mechanism group mechanismCount
  | ownTool _ group => ownTool "" group
  | loop => loop

end CouplingError

/-- The error without the name of a frame. -/
def StructureError.withoutName : StructureError α → StructureError α
  | coupling error => coupling error.withoutName
  | error => error

namespace Recast

/-- All targets without the names of their attributes. -/
def withoutNames : Recast α where
  tool tool := { tool with label := tool.label.rename "" }
  frame frame := { frame with label := frame.label.rename "" }
  speed speed := { speed with label := speed.label.rename "" }
  zone zone := { zone with label := zone.label.rename "" }
  command := Command.mapLabels fun label ↦ label.rename ""
  solution := id
  error := StructureError.withoutName

theorem step_withoutNames : (withoutNames : Recast α).step = Step.withoutNames := by
  funext step
  rw [Recast.step, Step.withoutNames, Step.mapTargets]
  congr 1
  refine List.ext_getElem (by simp) fun group _ _ ↦ ?_
  simp only [List.getElem_map, List.getElem_zipIdx]
  rfl

theorem waits_mapLabels (change : Label → Label) (command : Command α) :
    (command.mapLabels change).flatten.filterMap Instruction.waitSeconds? =
      command.flatten.filterMap Instruction.waitSeconds? := by
  rw [Command.flatten_mapLabels, List.filterMap_map]
  rfl

section Solve

variable [Scalar α] {cell : Cell α}

omit [Scalar α] in
theorem checkFrame_withoutNames (frame : Frame α) (group : Nat) :
    cell.checkFrame (withoutNames.frame frame) group =
      (cell.checkFrame frame group).mapError CouplingError.withoutName := by
  have hgroup : (withoutNames.frame frame).coupledGroup = frame.coupledGroup := rfl
  have hmechanism : (withoutNames.frame frame).coupledMechanism = frame.coupledMechanism := rfl
  have hname : (withoutNames.frame frame).label.name = "" := rfl
  unfold Cell.checkFrame
  rw [hgroup, hmechanism, hname]
  split
  · split_ifs <;> rfl
  · split
    · rfl
    · split <;> split_ifs <;> rfl

omit [Scalar α] in
theorem checkFrames_withoutNames (targets : List (Target α)) :
    cell.checkFrames (targets.map withoutNames.target) =
      (cell.checkFrames targets).mapError CouplingError.withoutName := by
  rw [Cell.checkFrames, List.zipIdx_map]
  exact forM_map_mapError (fun entry ↦ checkFrame_withoutNames entry.1.frame entry.2) _

theorem solveAfter_withoutNames (targets : List (Target α)) (previous : Option (List (List α)))
    {links : Nat} : ∀ group : Nat,
      cell.solveAfter (targets.map withoutNames.target) previous links group =
        cell.solveAfter targets previous links group := by
  have hgroup : ∀ (group : Nat) (coupled : Option (Pose α)),
      cell.solveGroup (targets.map withoutNames.target) previous group coupled =
        cell.solveGroup targets previous group coupled := by
    intro group coupled
    rw [Cell.solveGroup, List.getElem?_map, Cell.solveGroup]
    cases cell.groups[group]? <;> cases targets[group]? <;> rfl
  have hcarrier : ∀ group : Nat, Cell.carrier? (targets.map withoutNames.target) group =
      Cell.carrier? targets group := by
    intro group
    rw [Cell.carrier?, List.getElem?_map, Cell.carrier?]
    cases targets[group]? <;> rfl
  have hcarried : ∀ group other : Nat,
      cell.solveCarried (targets.map withoutNames.target) previous group other =
        cell.solveCarried targets previous group other := by
    intro group other
    funext solution
    rw [Cell.solveCarried, List.getElem?_map, Cell.solveCarried]
    cases cell.groups[other]? with
    | none => cases targets[group]? <;> rfl
    | some carrier =>
      cases targets[group]? with
      | none => rfl
      | some target => exact hgroup group _
  induction links with
  | zero => intro group; rfl
  | succ links ih =>
    intro group
    cases hfollows : Cell.carrier? targets group with
    | none =>
      rw [Cell.solveAfter_succ_free cell previous links ((hcarrier group).trans hfollows), hgroup,
        Cell.solveAfter_succ_free cell previous links hfollows]
    | some other =>
      rw [Cell.solveAfter_succ_carried cell previous links ((hcarrier group).trans hfollows), ih,
        hcarried, Cell.solveAfter_succ_carried cell previous links hfollows]

theorem solve_withoutNames (targets : List (Target α)) (previous : Option (List (List α))) :
    cell.solve (targets.map withoutNames.target) previous =
      withoutNames.outcome (List.map id) (cell.solve targets previous) := by
  have hafter : cell.solveAfter (targets.map withoutNames.target) previous cell.groups.length =
      cell.solveAfter targets previous cell.groups.length :=
    funext (solveAfter_withoutNames targets previous)
  unfold Cell.solve
  dsimp only
  rw [List.length_map, checkFrames_withoutNames, hafter]
  by_cases hcount : targets.length = cell.groups.length
  · rw [if_neg (not_not.mpr hcount), if_neg (not_not.mpr hcount)]
    cases cell.checkFrames targets with
    | error error => rfl
    | ok =>
      dsimp only [Except.mapError]
      cases (List.range cell.groups.length).mapM (cell.solveAfter targets previous _) with
      | none => rfl
      | some solutions => exact congrArg Except.ok (List.map_id solutions).symm
  · rw [if_pos hcount, if_pos hcount]
    rfl

theorem faithful_withoutNames (cell : Cell α) :
    withoutNames.Faithful cell cell (fun _ _ ↦ True) fun _ ↦ True where
  groups := rfl
  key _ := rfl
  limits _ := rfl
  waits := waits_mapLabels _
  joints _ := rfl
  configuration _ := rfl
  faults _ := rfl
  relative _ _ := rfl
  solve _ := solve_withoutNames _
  solved _ _ _ _ _ _ := trivial

end Solve

end Recast

/-! ### Steps before they have names -/

theorem withoutNames_relabelling (naming : Naming) :
    (fun kind label ↦ withoutNames kind (naming.relabelling kind label)) = withoutNames := by
  funext kind label
  rw [withoutNames, withoutNames, Label.rename, Label.rename, Naming.key_relabelling]

theorem Step.withoutNames_named (naming : Naming) (step : Step α) :
    (step.mapTargets fun _ ↦ Target.relabel naming.relabelling).withoutNames =
      step.withoutNames := by
  rw [withoutNames, mapTargets_mapTargets]
  simp only [Target.relabel_relabel, withoutNames_relabelling]
  rfl

section Prepared

variable [Scalar α] {cell : Cell α} {first : Step α} {rest : List (Step α)}
  {solutions : List (Solution α)} {prepared : PreparedProgram α}

/-- The first targets are prepared alike, whatever targets follow them. -/
theorem Prepares.withoutNames_take (h : Prepares cell first rest solutions prepared) (n : Nat) :
    ((prepared.first :: prepared.rest.take n).map Step.withoutNames) =
      (readied cell first (rest.take n) solutions).map Step.withoutNames := by
  have hnamed : ((prepared.first :: prepared.rest).map Step.withoutNames) =
      (readied cell first rest solutions).map Step.withoutNames := by
    rw [h.steps, nameAttributes, List.map_map]
    exact List.map_congr_left fun step _ ↦ Step.withoutNames_named _ step
  rw [← List.take_succ_cons, List.map_take, hnamed, ← List.map_take]
  simp [readied, clearConfigurations, List.map_take]

theorem stepsOf_take {toolpaths : List (List (Target α))} (count n : Nat) :
    (stepsOf toolpaths count).take n = stepsOf (toolpaths.map (List.take n)) (min n count) := by
  rw [stepsOf, ← List.map_take, List.take_range, stepsOf]
  refine List.map_congr_left fun index hindex ↦ ?_
  have hlt : index < n := (List.mem_range.mp hindex).trans_le (Nat.min_le_left n count)
  rw [List.filterMap_map]
  congr 2
  funext toolpath
  exact (List.getElem?_take_of_lt hlt).symm

omit [Scalar α] in
theorem min_toolpathLength {toolpaths : List (List (Target α))} {count : Nat}
    (h : toolpathLength toolpaths = .ok count) (n : Nat) :
    min n count = ((toolpaths.map (List.take n)).head?.map List.length).getD 0 := by
  have hcount := length_of_toolpathLength h
  cases toolpaths with
  | nil => cases h
  | cons toolpath others => simp [hcount toolpath List.mem_cons_self]

/-- Toolpaths that agree on the first targets have the same first steps. -/
theorem take_stepsOf_congr {toolpaths others : List (List (Target α))} {count count' n : Nat}
    {first' : Step α} {rest' : List (Step α)}
    (hagree : others.map (List.take (n + 1)) = toolpaths.map (List.take (n + 1)))
    (hlength : toolpathLength toolpaths = .ok count) (hlength' : toolpathLength others = .ok count')
    (hsteps : stepsOf toolpaths count = first :: rest)
    (hsteps' : stepsOf others count' = first' :: rest') :
    first' = first ∧ rest'.take n = rest.take n := by
  rw [← List.cons_eq_cons, ← List.take_succ_cons, ← List.take_succ_cons, ← hsteps, ← hsteps',
    stepsOf_take, stepsOf_take, hagree, min_toolpathLength hlength, min_toolpathLength hlength',
    hagree]

/-- First steps that are the same are prepared alike. -/
theorem Prepares.withoutNames_congr (h : Prepares cell first rest solutions prepared)
    {rest' : List (Step α)} {solutions' : List (Solution α)} {prepared' : PreparedProgram α}
    (h' : Prepares cell first rest' solutions' prepared') {n : Nat}
    (hrest : rest'.take n = rest.take n) :
    (prepared'.first :: prepared'.rest.take n).map Step.withoutNames =
      (prepared.first :: prepared.rest.take n).map Step.withoutNames := by
  obtain rfl := Except.ok.inj (h'.solve.symm.trans h.solve)
  rw [h'.withoutNames_take, hrest, h.withoutNames_take]

end Prepared

/-! ### Two programs -/

section Programs

variable [Scalar α] {cell : Cell α} {stepSize : α}

/-- Without names the timeline is the same. -/
theorem timeline_withoutNames {prepared : PreparedProgram α} {journey : Journey α}
    (h : Program.timeline cell stepSize prepared = .ok journey) :
    Program.timeline cell stepSize (Recast.withoutNames.prepared prepared) =
      .ok (Recast.withoutNames.journey journey) :=
  Recast.eq_outcome_of_ok ((Recast.faithful_withoutNames cell).timeline_eq stepSize
    (fun _ _ ↦ trivial) fun _ _ _ _ ↦ trivial) h

/-- Timelines of the same targets are the same apart from names. -/
theorem journey_withoutNames_congr {prepared other : PreparedProgram α}
    {journey onward : Journey α}
    (hsteps : (other.first :: other.rest).map Step.withoutNames =
      (prepared.first :: prepared.rest).map Step.withoutNames)
    (h : Program.timeline cell stepSize prepared = .ok journey)
    (hother : Program.timeline cell stepSize other = .ok onward) :
    Recast.withoutNames.journey onward = Recast.withoutNames.journey journey := by
  have hsame := timeline_withoutNames h
  have hagain := timeline_withoutNames hother
  obtain ⟨hfirst, hrest⟩ := List.cons_eq_cons.mp hsteps
  rw [← Recast.step_withoutNames] at hfirst hrest
  have hhead : (Recast.withoutNames.prepared other).first =
      (Recast.withoutNames.prepared prepared).first := hfirst
  have htail : (Recast.withoutNames.prepared other).rest =
      (Recast.withoutNames.prepared prepared).rest := hrest
  rw [timeline_eq_ite, hhead, htail, ← timeline_eq_ite, hsame] at hagain
  exact (Except.ok.inj hagain).symm

/-- Two programs whose targets agree up to an index agree up to it, apart from names, in the targets
that they keep, in their keyframes and in their faults. -/
theorem compile_causal {name name' : String} {toolpaths others : List (List (Target α))} {n : Nat}
    (hagree : others.map (List.take n) = toolpaths.map (List.take n)) {program other : Program α}
    (h : Program.compile name cell toolpaths stepSize = .ok program)
    (hother : Program.compile name' cell others stepSize = .ok other) :
    (other.targets.filter (·.index < n)).map Step.withoutNames =
        (program.targets.filter (·.index < n)).map Step.withoutNames ∧
      (other.keyframes.filter (·.index < n)).map Step.withoutNames =
        (program.keyframes.filter (·.index < n)).map Step.withoutNames ∧
      other.faults.filter (·.target < n) = program.faults.filter (·.target < n) := by
  obtain ⟨count, first, rest, solutions, prepared, journey, hstages, rfl⟩ := exists_stages_eq h
  obtain ⟨count', first', rest', solutions', prepared', journey', hstages', rfl⟩ :=
    exists_stages_eq hother
  cases n with
  | zero => simp
  | succ n =>
    obtain ⟨begun, hbegun, _, htargets, hkeyframes, hfaults⟩ := hstages.exists_begun n
    obtain ⟨begun', hbegun', _, htargets', hkeyframes', hfaults'⟩ := hstages'.exists_begun n
    obtain ⟨rfl, hrest⟩ := take_stepsOf_congr hagree hstages.length hstages'.length hstages.steps
      hstages'.steps
    have hsteps := hstages.prepares.withoutNames_congr hstages'.prepares hrest
    have hsame := journey_withoutNames_congr hsteps hbegun hbegun'
    rw [htargets, hkeyframes, hfaults, htargets', hkeyframes', hfaults', ← Recast.step_withoutNames]
    have hnamed : (Recast.withoutNames.journey begun').faults =
        (Recast.withoutNames.journey begun).faults := congrArg Journey.faults hsame
    exact ⟨congrArg Journey.targets hsame, congrArg Journey.keyframes hsame, hnamed⟩

end Programs

/-- All six axes at one value, with a tool that has no name. -/
noncomputable def marking (value : ℝ) : Target ℝ :=
  { standing value with tool := ⟨⟨.authored 0, ""⟩, 1, 0⟩ }

/-- A target whose tool has the name that the tool of `marking` gets in a program of its own. -/
noncomputable def remarking : Target ℝ :=
  { standing 0 with tool := ⟨⟨.authored 1, "Tool000"⟩, 1, 0⟩ }

theorem attainableBy_marking {value : ℝ} (h : |value| ≤ 1) (index : Nat) :
    (Cell.single restingArm).AttainableBy index (marking value) := by
  intro group hgroup
  obtain ⟨values, hgoal, hexternal, hadmits⟩ := attainableBy_standing h index group hgroup
  exact ⟨values, hgoal, hexternal, hadmits⟩

/-- The earlier motion is there, and the later name changes nothing in it. -/
theorem compile_causal_marking : ∃ program other,
    Program.compile "Marking" (.single restingArm) [[marking 0, marking (1 / 2)]] 1 =
      .ok program ∧
    Program.compile "Remarking" (.single restingArm) [[marking 0, marking (1 / 2), remarking]] 1 =
      .ok other ∧
    program.faults = [] ∧ (∃ keyframe ∈ program.keyframes, keyframe.index = 1) ∧
    (other.targets.filter (·.index < 2)).map Step.withoutNames =
      (program.targets.filter (·.index < 2)).map Step.withoutNames ∧
    (other.keyframes.filter (·.index < 2)).map Step.withoutNames =
      (program.keyframes.filter (·.index < 2)).map Step.withoutNames ∧
    other.faults.filter (·.target < 2) = program.faults.filter (·.target < 2) := by
  have hsize : isStepSize (1 : ℝ) = true := by simp [isStepSize, Exact.isFinite_eq_true]
  have hcount : toolpathLength [[marking 0, marking (1 / 2), remarking]] = .ok 3 := rfl
  have huncoupled : ∀ toolpath ∈ [[marking 0, marking (1 / 2), remarking]],
      ∀ target ∈ toolpath, target.coupling = (none, none) := by
    intro toolpath htoolpath target htarget
    obtain rfl := List.mem_singleton.mp htoolpath
    simp only [List.mem_cons, List.not_mem_nil, or_false] at htarget
    rcases htarget with rfl | rfl | rfl <;> rfl
  obtain ⟨program, hprogram⟩ := exists_compile_pair "Marking"
    (rfl : (Cell.single restingArm).groups.length = 1)
    (rfl : (marking 0).coupling = (none, none)) (rfl : (marking (1 / 2)).coupling = (none, none))
  obtain ⟨other, hother⟩ := exists_compile_uncoupled "Remarking"
    (rfl : _ = (Cell.single restingArm).groups.length) hcount hsize huncoupled
  have hnone := compile_attainable (forall_mem_pair (attainableBy_marking (by norm_num))
    (attainableBy_marking (by norm_num))) hprogram
  have hmoves : ∃ keyframe ∈ program.keyframes, keyframe.index = 1 := by
    obtain ⟨count, _, _, _, _, _, hstages, rfl⟩ := exists_stages_eq hprogram
    obtain rfl : 2 = count := Except.ok.inj hstages.length
    exact hstages.exists_keyframe hnone Nat.one_lt_two
  have hagree : [[marking 0, marking (1 / 2), remarking]].map (List.take 2) =
      [[marking 0, marking (1 / 2)]].map (List.take 2) := rfl
  exact ⟨program, other, hprogram, hother, hnone, hmoves,
    compile_causal hagree hprogram hother⟩

end Toolpath
