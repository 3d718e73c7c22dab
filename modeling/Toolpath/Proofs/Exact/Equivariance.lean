import Toolpath.Proofs.Exact.JointMotion
import Toolpath.Proofs.Exact.Relocation
import Toolpath.Proofs.Listing

/-!
Programs of a cell that stands elsewhere. The preparation reads the labels of attributes and not the
poses of frames, so that it prepares moved targets as it prepares the targets themselves
(`prepare_moved`); and no motion tells whether the cell was moved. Hence the program of moved targets
in the moved cell is the moved program (`compile_moved`).
-/

set_option autoImplicit false
set_option relaxedAutoImplicit false

namespace Toolpath

section Moved

variable {α : Type} [Scalar α]

/-- The attribute after the motion: nothing but a frame has a place in the world. -/
def Attribute.moved (motion : Pose α) : Attribute α → Attribute α
  | .frame given => .frame (given.moved motion)
  | entry => entry

def PreparedProgram.moved (motion : Pose α) (prepared : PreparedProgram α) : PreparedProgram α :=
  { (Recast.moved motion).prepared prepared with
    attributes := prepared.attributes.map (Attribute.moved motion) }

/-- The program after the motion. Times, warnings and faults stay. -/
def Program.moved (motion : Pose α) (program : Program α) : Program α :=
  { program with
    cell := program.cell.moved motion
    targets := program.targets.map (Recast.moved motion).step
    keyframes := program.keyframes.map (Recast.moved motion).step
    attributes := program.attributes.map (Attribute.moved motion) }

variable (motion : Pose α)

/-! ### The preparation -/

theorem Target.moved_eq (target : Target α) : (Recast.moved motion).target target =
    { target with frame := target.frame.moved motion } := by
  have hcommand : target.command.map id = target.command := congrFun Option.map_id target.command
  rw [Recast.target, Recast.moved]
  dsimp only
  rw [hcommand]
  rfl

theorem Target.attributes_moved (target : Target α) :
    ((Recast.moved motion).target target).attributes =
      target.attributes.map (Attribute.moved motion) := by
  rw [moved_eq, attributes, attributes, List.map_append, List.map_map]
  rfl

theorem Attribute.id_moved (entry : Attribute α) : (entry.moved motion).id = entry.id := by
  cases entry <;> rfl

theorem Attribute.name_moved (entry : Attribute α) : (entry.moved motion).name = entry.name := by
  cases entry <;> rfl

theorem Attribute.typeName_moved (entry : Attribute α) :
    (entry.moved motion).typeName = entry.typeName := by
  cases entry <;> rfl

theorem Attribute.relabel_moved (change : Relabelling) (entry : Attribute α) :
    (entry.moved motion).relabel change = (entry.relabel change).moved motion := by
  cases entry <;> rfl

theorem Naming.ofListing_moved (listing : List (Attribute α)) :
    ofListing (listing.map (Attribute.moved motion)) = ofListing listing := by
  have hnames : authoredNames (listing.map (Attribute.moved motion)) = authoredNames listing := by
    simp [authoredNames, Function.comp_def, Attribute.name_moved]
  have hadd : ∀ (authored : List String) (naming : Naming) (entry : Attribute α),
      naming.add authored (entry.moved motion) = naming.add authored entry := by
    intro authored naming entry
    simp only [add, Attribute.name_moved, Attribute.typeName_moved, Attribute.id_moved]
  rw [ofListing, hnames, List.foldl_map, ofListing]
  simp only [hadd]

theorem Target.relabel_moved (change : Relabelling) (target : Target α) :
    (Recast.moved motion).target (target.relabel change) =
      ((Recast.moved motion).target target).relabel change := by
  rw [moved_eq, moved_eq]
  rfl

theorem misfitCount_moved (cell : Cell α) (steps : List (Step α)) :
    misfitCount (cell.moved motion) (steps.map (Recast.moved motion).step) =
      misfitCount cell steps := by
  have hmisfits : (fun step : Step α ↦ (((Recast.moved motion).step step).targets.zipIdx.filter
      fun entry ↦ entry.1.external.length != (cell.moved motion).externalCount entry.2).length) =
        fun step ↦ (step.targets.zipIdx.filter
          fun entry ↦ entry.1.external.length != cell.externalCount entry.2).length := by
    funext step
    rw [Recast.targets_step, List.zipIdx_map, List.filter_map, List.length_map]
    rfl
  unfold misfitCount
  rw [List.map_map]
  exact congrArg (fun count ↦ (steps.map count).foldr (· + ·) 0) hmisfits

theorem fitExternals_moved (cell : Cell α) (steps : List (Step α)) :
    fitExternals (cell.moved motion) (steps.map (Recast.moved motion).step) =
      ((fitExternals cell steps).1.map (Recast.moved motion).step, (fitExternals cell steps).2) := by
  have htarget : ∀ (group : Nat) (target : Target α),
      (Recast.moved motion).target (fitExternal cell group target) =
        fitExternal (cell.moved motion) group ((Recast.moved motion).target target) :=
    fun _ _ ↦ rfl
  have hfit : ∀ step : Step α,
      ((Recast.moved motion).step step).mapTargets (fitExternal (cell.moved motion)) =
        (Recast.moved motion).step (step.mapTargets (fitExternal cell)) :=
    fun step ↦ (Recast.mapTargets_step htarget step).symm
  simp only [fitExternals, misfitCount_moved, List.map_map, Function.comp_def, hfit]

theorem clearConfigurations_moved (steps : List (Step α)) :
    clearConfigurations (steps.map (Recast.moved motion).step) =
      ((clearConfigurations steps).1.map (Recast.moved motion).step,
        (clearConfigurations steps).2) := by
  have hclear : ∀ step : Step α, (((Recast.moved motion).step step).mapTargets fun _ target ↦
      if hasIdleConfiguration target then target.withConfiguration none else target) =
        (Recast.moved motion).step (step.mapTargets fun _ target ↦
          if hasIdleConfiguration target then target.withConfiguration none else target) := by
    refine fun step ↦ (Recast.mapTargets_step (fun _ target ↦ ?_) step).symm
    have hidle : hasIdleConfiguration ((Recast.moved motion).target target) =
        hasIdleConfiguration target := rfl
    rw [hidle]
    split_ifs
    · exact (Recast.withConfiguration_target target none).symm
    · rfl
  have hwarnings : ∀ (step : Step α) (warning : Target α × Nat → Option (Warning α)),
      (∀ target group, warning ((Recast.moved motion).target target, group) =
        warning (target, group)) →
      ((Recast.moved motion).step step).targets.zipIdx.filterMap warning =
        step.targets.zipIdx.filterMap warning := by
    intro step warning hwarning
    rw [Recast.targets_step, List.zipIdx_map, List.filterMap_map]
    exact List.filterMap_congr fun entry _ ↦ hwarning entry.1 entry.2
  rw [clearConfigurations, clearConfigurations, List.flatMap_map]
  simp only [List.map_map, Function.comp_def, hclear]
  exact congrArg (Prod.mk _) (List.flatMap_congr fun step _ ↦ hwarnings step _ fun _ _ ↦ rfl)

theorem listAttributes_moved (steps : List (Step α)) :
    listAttributes (steps.map (Recast.moved motion).step) =
      (listAttributes steps).map (Attribute.moved motion) := by
  have huses : (steps.map (Recast.moved motion).step).flatMap
      (fun step ↦ step.targets.flatMap Target.attributes) =
        (steps.flatMap fun step ↦ step.targets.flatMap Target.attributes).map
          (Attribute.moved motion) := by
    simp only [List.flatMap_map, Recast.targets_step, Target.attributes_moved, List.map_flatMap]
  rw [listAttributes, huses, listAttributes]
  exact distinctBy_map_of_key (Attribute.id_moved motion) _

theorem nameAttributes_moved (steps : List (Step α)) :
    nameAttributes (steps.map (Recast.moved motion).step) =
      ((nameAttributes steps).1.map (Recast.moved motion).step,
        (nameAttributes steps).2.1.map (Attribute.moved motion), (nameAttributes steps).2.2) := by
  have hnamed : ∀ (change : Relabelling) (step : Step α),
      (((Recast.moved motion).step step).mapTargets fun _ ↦ Target.relabel change) =
        (Recast.moved motion).step (step.mapTargets fun _ ↦ Target.relabel change) :=
    fun change step ↦
      (Recast.mapTargets_step (fun _ ↦ Target.relabel_moved motion change) step).symm
  simp only [nameAttributes, listAttributes_moved, Naming.ofListing_moved, List.map_map,
    Function.comp_def, hnamed, Attribute.relabel_moved]

theorem defaultWarnings_moved (steps : List (Step α)) :
    defaultWarnings (steps.map (Recast.moved motion).step) = defaultWarnings steps := by
  have hany : ∀ {used : Target α → Bool},
      (∀ target, used ((Recast.moved motion).target target) = used target) →
        ((steps.map (Recast.moved motion).step).flatMap Step.targets).any used =
          (steps.flatMap Step.targets).any used := by
    intro used hused
    simp only [List.any_flatMap, List.any_map, Recast.targets_step, Function.comp_def, hused]
  rw [defaultWarnings, hany fun _ ↦ rfl, hany fun _ ↦ rfl, defaultWarnings]

theorem payloadWarnings_moved (cell : Cell α) (steps : List (Step α)) :
    payloadWarnings (cell.moved motion) (steps.map (Recast.moved motion).step) =
      payloadWarnings cell steps := by
  have huses : toolUses (steps.map (Recast.moved motion).step) = toolUses steps := by
    rw [toolUses, List.flatMap_map, toolUses]
    refine congrArg (distinctBy _) (List.flatMap_congr fun step _ ↦ ?_)
    rw [Recast.targets_step, List.zipIdx_map, List.map_map]
    rfl
  rw [payloadWarnings, huses]
  rfl

theorem anchorTarget_moved (cell : Cell α) (group : Nat) (target : Target α)
    (solution : Solution α) :
    anchorTarget (cell.moved motion) group ((Recast.moved motion).target target)
        (solution.moved motion) =
      (Recast.moved motion).target (anchorTarget cell group target solution) := by
  have haxes : (cell.moved motion).armAxisCount group = cell.armAxisCount group := rfl
  have hcartesian : ((Recast.moved motion).target target).isCartesian = target.isCartesian := rfl
  rw [anchorTarget, anchorTarget, haxes, hcartesian, Solution.joints_moved]
  split_ifs <;> rfl

theorem checkAllFrames_moved (cell : Cell α) (steps : List (Step α)) :
    checkAllFrames (cell.moved motion) (steps.map (Recast.moved motion).step) =
      checkAllFrames cell steps := by
  unfold checkAllFrames
  rw [List.forM_eq_forM]
  induction steps with
  | nil => rfl
  | cons step rest ih =>
    rw [List.map_cons, List.forM_cons, List.forM_cons, ih, Recast.targets_step,
      Cell.checkFrames_moved]

theorem stepsOf_moved (toolpaths : List (List (Target α))) (count : Nat) :
    stepsOf (toolpaths.map (List.map (Recast.moved motion).target)) count =
      (stepsOf toolpaths count).map (Recast.moved motion).step := by
  rw [stepsOf, stepsOf, List.map_map]
  refine List.map_congr_left fun index _ ↦ ?_
  have htargets : (toolpaths.map (List.map (Recast.moved motion).target)).filterMap (·[index]?) =
      (toolpaths.filterMap (·[index]?)).map (Recast.moved motion).target := by
    rw [List.filterMap_map, List.map_filterMap]
    exact List.filterMap_congr fun toolpath _ ↦ List.getElem?_map
  have hwaypoint : ∀ target : Target α, (Recast.moved motion).waypoint (.ofTarget target) =
      .ofTarget ((Recast.moved motion).target target) := fun _ ↦ rfl
  rw [htargets, Function.comp_apply, Step.ofTargets, Step.ofTargets, Recast.step, List.map_map]
  simp only [List.map_map, Function.comp_def, hwaypoint]

theorem toolpathLength_moved (toolpaths : List (List (Target α))) :
    toolpathLength (toolpaths.map (List.map (Recast.moved motion).target)) =
      toolpathLength toolpaths := by
  have hhead : ((toolpaths.map (List.map (Recast.moved motion).target)).head?.map
      List.length).getD 0 = (toolpaths.head?.map List.length).getD 0 := by
    cases toolpaths <;> simp
  have hlength : ∀ entry : List (Target α) × Nat,
      (Prod.map (List.map (Recast.moved motion).target) id entry).1.length = entry.1.length :=
    fun _ ↦ List.length_map _
  unfold toolpathLength
  dsimp only
  rw [hhead, List.zipIdx_map, List.find?_map]
  simp only [Function.comp_def, hlength]
  split_ifs
  · rfl
  · cases toolpaths.zipIdx.find? _ <;> simp

end Moved

variable {motion : Pose ℝ} {cell : Cell ℝ}

section Programs

variable (hmotion : motion.Rigid) (hcell : cell.Rigid) (hcomplete : cell.Complete)

include hmotion hcell hcomplete

theorem anchor_moved {first : Step ℝ}
    (hfirst : first.Admitted RigidAttributes) :
    anchor (cell.moved motion) ((Recast.moved motion).step first) =
      (Recast.moved motion).outcome (Prod.map (Recast.moved motion).step id)
        (anchor cell first) := by
  have hfaithful := Recast.faithful_moved hmotion hcell hcomplete
  unfold anchor
  rw [Recast.targets_step, Cell.solve_moved hmotion hcell none hcomplete hfirst]
  refine Recast.outcome_bind fun solutions _ ↦ ?_
  have htargets : (((first.targets.map (Recast.moved motion).target).zip
      (solutions.map (Solution.moved motion))).zipIdx.map fun ((target, solution), group) ↦
        anchorTarget (cell.moved motion) group target solution) =
      ((first.targets.zip solutions).zipIdx.map fun ((target, solution), group) ↦
        anchorTarget cell group target solution).map (Recast.moved motion).target := by
    rw [List.zip_map, List.zipIdx_map, List.map_map, List.map_map]
    exact List.map_congr_left fun entry _ ↦ anchorTarget_moved motion cell _ _ _
  have hwarnings : ((first.targets.map (Recast.moved motion).target).zipIdx.filterMap
      fun (target, group) ↦ if target.isCartesian then
        some (Warning.firstTargetToJoints (α := ℝ) group) else none) =
      first.targets.zipIdx.filterMap fun (target, group) ↦ if target.isCartesian then
        some (Warning.firstTargetToJoints group) else none := by
    rw [List.zipIdx_map, List.filterMap_map]
    rfl
  dsimp only
  rw [htargets, hwarnings, Recast.withTargets_step]
  exact congrArg (fun step ↦ Except.ok (step, _)) (hfaithful.withSolutions_step _ solutions none)

omit hmotion hcell hcomplete in
theorem admitted_fitExternal {first : Step ℝ} (hfirst : first.Admitted RigidAttributes) :
    (first.mapTargets (fitExternal cell)).Admitted RigidAttributes := by
  intro target htarget
  rw [Step.targets_mapTargets] at htarget
  obtain ⟨⟨given, group⟩, hgiven, rfl⟩ := List.mem_map.mp htarget
  exact hfirst given (List.fst_mem_of_mem_zipIdx hgiven)

theorem prepare_moved {first : Step ℝ} (rest : List (Step ℝ))
    (hfirst : first.Admitted RigidAttributes) :
    prepare (cell.moved motion) ((Recast.moved motion).step first)
        (rest.map (Recast.moved motion).step) =
      (Recast.moved motion).outcome (PreparedProgram.moved motion) (prepare cell first rest) := by
  unfold prepare
  rw [← List.map_cons, checkAllFrames_moved]
  cases checkAllFrames cell (first :: rest) with
  | error error => rfl
  | ok =>
    have hsteps : (fitExternals cell (first :: rest)).1 =
        first.mapTargets (fitExternal cell) :: rest.map (·.mapTargets (fitExternal cell)) := rfl
    dsimp only
    rw [fitExternals_moved, hsteps, List.map_cons, List.headD_cons, List.headD_cons, List.tail_cons,
      List.tail_cons, anchor_moved hmotion hcell hcomplete (admitted_fitExternal hfirst)]
    refine Recast.outcome_bind fun ⟨start, warnings⟩ _ ↦ ?_
    dsimp only [Prod.map, id]
    rw [← List.map_cons, clearConfigurations_moved, nameAttributes_moved, defaultWarnings_moved,
      payloadWarnings_moved]
    rfl

omit hmotion hcell hcomplete in
theorem admitted_rest {first : Step ℝ} {rest : List (Step ℝ)} {solutions : List (Solution ℝ)}
    {prepared : PreparedProgram ℝ} (h : Prepares cell first rest solutions prepared)
    (hrest : ∀ step ∈ rest, step.Admitted RigidAttributes) :
    ∀ step ∈ prepared.rest, step.Admitted RigidAttributes := by
  have hkept := h.map_targets_rest (f := fun target ↦ (target.frame.pose, target.tool.tcp))
    (fun _ _ ↦ rfl) (fun target configuration ↦ by
      unfold Target.withConfiguration
      split <;> rfl) fun _ _ ↦ rfl
  intro step hstep target htarget
  obtain ⟨given, hgiven, hsame⟩ := List.mem_map.mp (hkept ▸ List.mem_map_of_mem hstep)
  obtain ⟨authored, hauthored, hposes⟩ := List.mem_map.mp (hsame ▸ List.mem_map_of_mem htarget)
  obtain ⟨hframe, htool⟩ := Prod.mk.inj hposes
  have hrigid := hrest given hgiven authored hauthored
  exact ⟨hframe ▸ hrigid.frame, htool ▸ hrigid.tool⟩

theorem compile_eq_outcome (name : String) {toolpaths : List (List (Target ℝ))} (stepSize : ℝ)
    (htargets : ∀ toolpath ∈ toolpaths, ∀ target ∈ toolpath,
      RigidAttributes target.tool target.frame) :
    Program.compile name (cell.moved motion)
        (toolpaths.map (List.map (Recast.moved motion).target)) stepSize =
      (Recast.moved motion).outcome (Program.moved motion)
        (Program.compile name cell toolpaths stepSize) := by
  have hfaithful := Recast.faithful_moved hmotion hcell hcomplete
  have hgroups : (cell.moved motion).groups = cell.groups := rfl
  have hplaced : ∀ (count : Nat), ∀ step ∈ stepsOf toolpaths count,
      step.Admitted RigidAttributes := by
    intro count step hstep target htarget
    obtain ⟨index, _, rfl⟩ := List.mem_map.mp hstep
    rw [Step.targets_ofTargets] at htarget
    obtain ⟨toolpath, htoolpath, hentry⟩ := List.mem_filterMap.mp htarget
    exact htargets toolpath htoolpath target (List.mem_of_getElem? hentry)
  unfold Program.compile
  rw [List.length_map, hgroups, toolpathLength_moved]
  by_cases hcount : toolpaths.length = cell.groups.length
  · rw [if_neg (not_not.mpr hcount), if_neg (not_not.mpr hcount)]
    cases hlength : toolpathLength toolpaths with
    | error error => rfl
    | ok count =>
      rw [ok_bind, ok_bind]
      by_cases hsize : (!isStepSize stepSize) = true
      · rw [if_pos hsize, if_pos hsize]
        rfl
      · rw [if_neg hsize, if_neg hsize, stepsOf_moved]
        cases hsteps : stepsOf toolpaths count with
        | nil => rfl
        | cons first rest =>
          have hgiven := hplaced count
          rw [hsteps, List.forall_mem_cons] at hgiven
          rw [List.map_cons]
          dsimp only
          rw [prepare_moved hmotion hcell hcomplete rest hgiven.1]
          refine Recast.outcome_bind fun prepared hprepared ↦ ?_
          obtain ⟨solutions, hprepares⟩ := exists_prepares hprepared
          have hwaypoints : first.waypoints.length = cell.groups.length := by
            rw [← hcount]
            exact length_waypoints_of_mem_stepsOf (length_of_toolpathLength hlength) first
              (hsteps ▸ List.mem_cons_self)
          have hfirst : prepared.first.Sound fun solution ↦
              solution.planes ≠ [] ∧ solution.frame.Rigid := by
            rw [Step.sound_iff, hprepares.solutions_first hwaypoints]
            exact hfaithful.solved (admitted_fitExternal hgiven.1) hprepares.solve
          have htimeline := hfaithful.timeline_eq stepSize hfirst (admitted_rest hprepares hgiven.2)
          have hsame : Program.timeline (cell.moved motion) stepSize
              (prepared.moved motion) = Program.timeline (cell.moved motion) stepSize
                ((Recast.moved motion).prepared prepared) := rfl
          rw [hsame, htimeline]
          exact Recast.outcome_bind fun journey _ ↦ rfl
  · rw [if_pos hcount, if_pos hcount]
    rfl

omit hmotion hcell hcomplete in
/-- A solved step has planes and frames, and the motion moves all of them. -/
theorem Step.SolvedBy.frame_moved {step : Step ℝ} (h : step.SolvedBy cell) (motion : Pose ℝ) :
    ∀ solution ∈ step.solutions, (solution.moved motion).frame = motion * solution.frame := by
  intro solution hsolution
  obtain ⟨targets, previous, hsolve⟩ := h
  obtain ⟨hcount, hframes⟩ := Cell.checked_of_solve hsolve
  obtain ⟨index, hindex⟩ := List.mem_iff_getElem?.mp hsolution
  obtain ⟨group, target, coupled, _, _, rfl, _⟩ :=
    Cell.exists_solve_of_getElem? hcount hframes hsolve hindex
  exact Solution.frame_moved motion (Group.planes_join_ne_nil _ _ _)

/-- Moving the whole cell moves the planes and frames of its programs and changes nothing else in
them. A target whose motion cannot start is kept without a solution, so that it has no frame. -/
theorem compile_moved (name : String) {toolpaths : List (List (Target ℝ))} (stepSize : ℝ)
    (htargets : ∀ toolpath ∈ toolpaths, ∀ target ∈ toolpath,
      RigidAttributes target.tool target.frame) :
    Program.compile name (cell.moved motion)
        (toolpaths.map (List.map (Recast.moved motion).target)) stepSize =
      (Program.compile name cell toolpaths stepSize).map (Program.moved motion) ∧
    ∀ program, Program.compile name cell toolpaths stepSize = .ok program →
      (∀ keyframe ∈ program.keyframes, ∀ solution ∈ keyframe.solutions,
        (solution.moved motion).frame = motion * solution.frame) ∧
      ∀ kept ∈ program.targets,
        (∃ group, .undefinedStart kept.index group ∈ program.faults) ∨
          ∀ solution ∈ kept.solutions, (solution.moved motion).frame = motion * solution.frame := by
  constructor
  · rw [compile_eq_outcome hmotion hcell hcomplete name stepSize htargets]
    cases Program.compile name cell toolpaths stepSize <;> rfl
  · intro program hprogram
    obtain ⟨count, first, rest, solutions, prepared, journey, hstages, rfl⟩ :=
      exists_stages_eq hprogram
    refine ⟨fun keyframe hkeyframe ↦ ?_, fun kept hkept ↦ ?_⟩
    · exact (hstages.solvedBy_keyframe hkeyframe).frame_moved motion
    · rcases hstages.solvedBy_target hkept with hsolved | hundefined
      · exact .inr (hsolved.frame_moved motion)
      · exact .inl hundefined

end Programs

/-- The resting arm is put down a step away and turned. -/
noncomputable def aside : Pose ℝ :=
  ⟨⟨1, 0, 0⟩, .aboutZ 1⟩

theorem compile_moved_standing : ∃ program,
    Program.compile "Standing" (.single restingArm) [[standing 0, standing (1 / 2)]] 1 =
      .ok program ∧
    Program.compile "Standing" ((Cell.single restingArm).moved aside)
      [[(Recast.moved aside).target (standing 0), (Recast.moved aside).target (standing (1 / 2))]] 1 =
        .ok (program.moved aside) ∧
    ∀ keyframe ∈ program.keyframes, ∀ solution ∈ keyframe.solutions,
      (solution.moved aside).frame = aside * solution.frame := by
  obtain ⟨program, hprogram⟩ := exists_compile_standing 0 (1 / 2)
  have haside : aside.Rigid := Rotation.proper_aboutZ _
  have hcell : (Cell.single restingArm).Rigid := Cell.rigid_single Pose.rigid_one
  have hcomplete := Cell.complete_single restingArm
  have hstanding : ∀ value, RigidAttributes (standing value).tool (standing value).frame :=
    fun _ ↦ ⟨Pose.rigid_one, Pose.rigid_one⟩
  have htargets : ∀ toolpath ∈ [[standing 0, standing (1 / 2)]], ∀ target ∈ toolpath,
      RigidAttributes target.tool target.frame := by
    intro toolpath htoolpath target htarget
    obtain rfl := List.mem_singleton.mp htoolpath
    rcases List.mem_pair.mp htarget with rfl | rfl
    · exact hstanding 0
    · exact hstanding (1 / 2)
  obtain ⟨hmoved, hframes⟩ := compile_moved haside hcell hcomplete "Standing" 1 htargets
  rw [hprogram] at hmoved
  exact ⟨program, hprogram, hmoved, (hframes program hprogram).1⟩

end Toolpath
