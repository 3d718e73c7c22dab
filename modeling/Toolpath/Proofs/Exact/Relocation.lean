import Toolpath.Proofs.Exact.Frames
import Toolpath.Proofs.Recasting

/-!
A cell that stands elsewhere. A rigid motion of the world moves the base of the cell and the frames
that no group carries (`Cell.moved`, `Frame.moved`); nothing else of a cell or of a target refers to
the world. The moved cell solves moved targets to the same axis values, configurations and faults,
with all planes and frames moved (`Cell.solve_moved`). Motions do not tell the difference
(`Recast.faithful_moved`): they read poses in the coordinates of a frame, and the motion drops out
of these (`Pose.inverse_mul_mul`).
-/

set_option autoImplicit false
set_option relaxedAutoImplicit false

namespace Toolpath

section Moved

variable {α : Type} [Scalar α]

/-- The frame after the motion. A frame that a group carries is moved with the group. -/
def Frame.moved (motion : Pose α) (frame : Frame α) : Frame α :=
  { frame with pose := if frame.isCoupled then frame.pose else motion * frame.pose }

/-- The cell on its moved base. -/
def Cell.moved (motion : Pose α) (cell : Cell α) : Cell α :=
  { cell with base := motion * cell.base }

namespace Solution

/-- The solution with its planes moved. -/
def movePlanes (motion : Pose α) (solution : Solution α) : Solution α :=
  { solution with planes := solution.planes.map (motion * ·) }

/-- The solution after the motion. What is not solved yet has no planes, and no frame to be moved. -/
def moved (motion : Pose α) (solution : Solution α) : Solution α :=
  if solution.planes.isEmpty then solution
  else { solution.movePlanes motion with frame := motion * solution.frame }

end Solution

/-- The targets in moved frames, with moved solutions. -/
def Recast.moved (motion : Pose α) : Recast α where
  tool := id
  frame := Frame.moved motion
  speed := id
  zone := id
  command := id
  solution := Solution.moved motion
  error := id

variable (motion : Pose α) (solution : Solution α)

namespace Solution

theorem planes_moved : (solution.moved motion).planes = solution.planes.map (motion * ·) := by
  unfold moved
  split_ifs with hnone
  · rw [List.isEmpty_iff.mp hnone, List.map_nil]
  · rfl

@[simp] theorem joints_moved : (solution.moved motion).joints = solution.joints := by
  unfold moved
  split_ifs <;> rfl

@[simp] theorem configuration_moved :
    (solution.moved motion).configuration = solution.configuration := by
  unfold moved
  split_ifs <;> rfl

@[simp] theorem faults_moved : (solution.moved motion).faults = solution.faults := by
  unfold moved
  split_ifs <;> rfl

variable {solution}

theorem moved_eq (h : solution.planes ≠ []) :
    solution.moved motion = { solution.movePlanes motion with frame := motion * solution.frame } :=
  if_neg (mt List.isEmpty_iff.mp h)

theorem frame_moved (h : solution.planes ≠ []) :
    (solution.moved motion).frame = motion * solution.frame := by
  rw [moved_eq motion h]

theorem tcp_movePlanes (h : solution.planes ≠ []) :
    (solution.movePlanes motion).tcp = motion * solution.tcp := by
  obtain ⟨plane, planes, hplanes⟩ := List.exists_cons_of_ne_nil h
  have hmoved : (solution.movePlanes motion).planes = (plane :: planes).map (motion * ·) := by
    rw [← hplanes]
    rfl
  rw [tcp, hmoved, tcp, hplanes, List.getLastD_eq_getLast?, List.getLastD_eq_getLast?,
    List.getLast?_map, List.getLast?_cons, Option.map_some, Option.getD_some, Option.getD_some]

theorem tcp_moved (h : solution.planes ≠ []) :
    (solution.moved motion).tcp = motion * solution.tcp := by
  rw [moved_eq motion h]
  exact tcp_movePlanes motion h

end Solution

end Moved

/-! ### Poses in the coordinates of a frame -/

namespace Pose

variable {motion frame : Pose ℝ}

theorem inverse_mul_cancel (hframe : frame.Rigid) (pose : Pose ℝ) :
    frame.inverse * (frame * pose) = pose := by
  rw [← Pose.mul_assoc hframe.inverse hframe, hframe.inverse_mul, Pose.one_mul]

/-- A pose in the coordinates of a frame does not change where both are moved. -/
theorem inverse_mul_mul (hmotion : motion.Rigid) (hframe : frame.Rigid) (pose : Pose ℝ) :
    (motion * frame).inverse * (motion * pose) = frame.inverse * pose := by
  calc (motion * frame).inverse * (motion * pose)
      = (motion * frame).inverse * (motion * (frame * (frame.inverse * pose))) := by
        rw [Pose.mul_inverse_mul hframe]
    _ = (motion * frame).inverse * (motion * frame * (frame.inverse * pose)) := by
        rw [Pose.mul_assoc hmotion hframe]
    _ = frame.inverse * pose := inverse_mul_cancel (hmotion.mul hframe) _

end Pose

variable {motion : Pose ℝ}

/-! ### Mechanisms and arms -/

namespace Mechanism

theorem chainPlanes_moved (hmotion : motion.Rigid) {axes : List (Pose ℝ)} {joints : List (Joint ℝ)}
    {values : List ℝ} (haxes : ∀ axis ∈ axes, axis.Rigid) : ∀ {start : Pose ℝ}, start.Rigid →
      chainPlanes (motion * start) axes joints values =
        (chainPlanes start axes joints values).map (motion * ·) := by
  induction axes generalizing joints values with
  | nil => intro start _; rfl
  | cons axis axes ih =>
    intro start hstart
    rcases joints with - | ⟨joint, joints⟩
    · rfl
    rcases values with - | ⟨value, values⟩
    · rfl
    rw [List.forall_mem_cons] at haxes
    have hplaced : (start * axis).Rigid := hstart.mul haxes.1
    have hpose : motion * start * axis * joint.motion value =
        motion * (start * axis * joint.motion value) := by
      rw [Pose.mul_assoc hmotion hstart, Pose.mul_assoc hmotion hplaced]
    rw [chainPlanes, chainPlanes, List.map_cons, hpose,
      ih haxes.2 (hplaced.mul (joint.rigid_motion value))]

theorem axisPlanes_moved (hmotion : motion.Rigid) {mechanism : Mechanism ℝ}
    (hmechanism : mechanism.Rigid) {base : Pose ℝ} (hbase : base.Rigid) (values : List ℝ) :
    mechanism.axisPlanes (motion * base) values =
      (mechanism.axisPlanes base values).map (motion * ·) := by
  have haxes := hmechanism.axes
  unfold axisPlanes
  cases hkind : mechanism.kind with
  | track =>
    rw [List.map_map]
    exact List.map_congr_left fun carriage _ ↦ Pose.mul_assoc hmotion hbase carriage
  | positioner axes =>
    rw [hkind] at haxes
    exact chainPlanes_moved hmotion haxes hbase
  | custom axes =>
    rw [hkind] at haxes
    exact chainPlanes_moved hmotion haxes hbase

theorem solve_moved (hmotion : motion.Rigid) {mechanism : Mechanism ℝ}
    (hmechanism : mechanism.Rigid) {parent : Pose ℝ} (hparent : parent.Rigid) (values : List ℝ) :
    mechanism.solve values (motion * parent) =
      (mechanism.solve values parent).movePlanes motion := by
  have hbase : motion * parent * mechanism.base = motion * (parent * mechanism.base) :=
    Pose.mul_assoc hmotion hparent mechanism.base
  have hplanes := axisPlanes_moved hmotion hmechanism (hparent.mul hmechanism.base)
  simp only [solve, hbase, hplanes, Solution.movePlanes, List.map_cons]

theorem planes_solve_ne_nil {α : Type} [Scalar α] (mechanism : Mechanism α) (values : List α)
    (parent : Pose α) : (mechanism.solve values parent).planes ≠ [] :=
  List.cons_ne_nil _ _

end Mechanism

namespace Arm

theorem flangeFor_moved (hmotion : motion.Rigid) {base : Pose ℝ} (hbase : base.Rigid)
    (frame pose tool : Pose ℝ) :
    flangeFor (motion * base) (motion * frame) pose tool = flangeFor base frame pose tool := by
  rw [flangeFor, Pose.inverse_mul_mul hmotion hbase, flangeFor]

theorem planes_solve_ne_nil {α : Type} [Scalar α] (arm : Arm α) (target : Target α)
    (frame : Pose α) (previous : Option (List α)) (parent : Pose α) :
    (arm.solve target frame previous parent).planes ≠ [] :=
  List.cons_ne_nil _ _

/-- The arm reads of a target its goal and its tool, and the world only through its base. -/
theorem solve_moved (hmotion : motion.Rigid) {arm : Arm ℝ} {parent : Pose ℝ}
    (hparent : parent.Rigid) (hbase : arm.base.Rigid) (target : Target ℝ) (frame : Pose ℝ)
    (previous : Option (List ℝ)) :
    arm.solve ((Recast.moved motion).target target) (motion * frame) previous (motion * parent) =
      (arm.solve target frame previous parent).moved motion := by
  have hmount : (parent * arm.base).Rigid := hparent.mul hbase
  have hmoved : motion * parent * arm.base = motion * (parent * arm.base) :=
    Pose.mul_assoc hmotion hparent arm.base
  have hposition : arm.position ((Recast.moved motion).target target)
      (motion * (parent * arm.base)) (motion * frame) previous =
        arm.position target (parent * arm.base) frame previous := by
    have hgoal : ((Recast.moved motion).target target).goal = target.goal := rfl
    unfold position
    rw [hgoal]
    cases target.goal with
    | cartesian pose forced kind =>
      dsimp only
      rw [flangeFor_moved hmotion hmount]
      rfl
    | joints values => rfl
  have hplanes : ∀ joints : List ℝ, (arm.solver.forward joints).map
      (motion * (parent * arm.base) * ·) =
        ((arm.solver.forward joints).map (parent * arm.base * ·)).map (motion * ·) := by
    intro joints
    rw [List.map_map]
    exact List.map_congr_left fun pose _ ↦ Pose.mul_assoc hmotion hmount pose
  rw [Solution.moved_eq motion (arm.planes_solve_ne_nil _ _ _ _)]
  simp only [solve, hmoved, hposition, hplanes, Solution.movePlanes, List.map_cons]

end Arm

/-! ### Groups -/

namespace Group

theorem solveMechanisms_moved (hmotion : motion.Rigid) {mechanisms : List (Mechanism ℝ)}
    (hmechanisms : ∀ mechanism ∈ mechanisms, mechanism.Rigid) {parent : Pose ℝ}
    (hparent : parent.Rigid) : ∀ values : List ℝ,
      solveMechanisms (motion * parent) mechanisms values =
        (solveMechanisms parent mechanisms values).map (Solution.movePlanes motion) := by
  induction mechanisms with
  | nil => intro values; rfl
  | cons mechanism rest ih =>
    intro values
    rw [List.forall_mem_cons] at hmechanisms
    rw [solveMechanisms, solveMechanisms, List.map_cons,
      mechanism.solve_moved hmotion hmechanisms.1 hparent, ih hmechanisms.2]

theorem planes_ne_nil_of_mem_solveMechanisms {α : Type} [Scalar α] {parent : Pose α}
    {mechanisms : List (Mechanism α)} : ∀ {values : List α},
      ∀ solution ∈ solveMechanisms parent mechanisms values, solution.planes ≠ [] := by
  induction mechanisms with
  | nil => intro values solution hsolution; cases hsolution
  | cons mechanism rest ih =>
    intro values
    exact List.forall_mem_cons.mpr ⟨mechanism.planes_solve_ne_nil _ _, ih⟩

theorem tips_moved (hmotion : motion.Rigid) {mechanisms : List (Mechanism ℝ)}
    (hmechanisms : ∀ mechanism ∈ mechanisms, mechanism.Rigid) {parent : Pose ℝ}
    (hparent : parent.Rigid) (values : List ℝ) :
    (solveMechanisms (motion * parent) mechanisms values).map Solution.tcp =
      ((solveMechanisms parent mechanisms values).map Solution.tcp).map (motion * ·) := by
  rw [solveMechanisms_moved hmotion hmechanisms hparent, List.map_map, List.map_map]
  exact List.map_congr_left fun solution hsolution ↦
    Solution.tcp_movePlanes motion (planes_ne_nil_of_mem_solveMechanisms solution hsolution)

theorem armParent_moved {mechanisms : List (Mechanism ℝ)} {tips : List (Pose ℝ)} :
    ∀ parent : Pose ℝ, armParent (motion * parent) mechanisms (tips.map (motion * ·)) =
      motion * armParent parent mechanisms tips := by
  unfold armParent
  induction mechanisms generalizing tips with
  | nil => intro parent; rfl
  | cons mechanism rest ih =>
    intro parent
    rcases tips with - | ⟨tip, tips⟩
    · rfl
    · rw [List.map_cons, List.zip_cons_cons, List.zip_cons_cons, List.foldl_cons, List.foldl_cons,
        ← ih]
      dsimp only
      split_ifs <;> rfl

/-- There is a plane that carries the frame, if it is coupled: the last one of a mechanism of the
group itself, or the plane `coupled` of another group. -/
def Carries {α : Type} (frame : Frame α) (index : Nat) (coupled : Option (Pose α))
    (mechanisms : Nat) : Prop :=
  ∀ other, frame.coupledGroup = some other →
    if other = index then ∃ mechanism, frame.coupledMechanism = some mechanism ∧
      mechanism < mechanisms
    else coupled.isSome

/-- A coupled frame is moved with the plane that carries it. -/
theorem framePose_moved (hmotion : motion.Rigid) {frame : Frame ℝ} {index : Nat}
    {coupled : Option (Pose ℝ)} {tips : List (Pose ℝ)}
    (hcarries : Carries frame index coupled tips.length)
    (hcoupled : ∀ plane ∈ coupled, plane.Rigid) (htips : ∀ tip ∈ tips, tip.Rigid) :
    framePose (frame.moved motion) index (coupled.map (motion * ·)) (tips.map (motion * ·)) =
      motion * framePose frame index coupled tips := by
  have hcarried : ∀ {carrier : Option (Pose ℝ)}, carrier.isSome → (∀ plane ∈ carrier, plane.Rigid) →
      ((carrier.map (motion * ·)).map (· * frame.pose)).getD frame.pose =
        motion * (carrier.map (· * frame.pose)).getD frame.pose := by
    intro carrier hsome hrigid
    obtain ⟨plane, rfl⟩ := Option.isSome_iff_exists.mp hsome
    exact Pose.mul_assoc hmotion (hrigid plane rfl) frame.pose
  cases hgroup : frame.coupledGroup with
  | none => simp [framePose, Frame.moved, Frame.isCoupled, hgroup]
  | some other =>
    have hcarrier := hcarries other hgroup
    have hpose : (frame.moved motion).pose = frame.pose := by
      simp [Frame.moved, Frame.isCoupled, hgroup]
    have hsame : (frame.moved motion).coupledGroup = some other := hgroup
    by_cases hown : other = index
    · rw [if_pos hown] at hcarrier
      obtain ⟨mechanism, hmechanism, hlt⟩ := hcarrier
      have hplace : (frame.moved motion).coupledMechanism = some mechanism := hmechanism
      simp only [framePose, hsame, hplace, hpose, hgroup, hmechanism, if_pos hown, List.getElem?_map]
      exact hcarried (by simp [hlt]) fun plane hplane ↦ htips plane (List.mem_of_getElem? hplane)
    · rw [if_neg hown] at hcarrier
      have hplace : (frame.moved motion).coupledMechanism = frame.coupledMechanism := rfl
      unfold framePose
      rw [hsame, hplace, hpose, hgroup]
      cases frame.coupledMechanism with
      | none => exact hcarried hcarrier hcoupled
      | some mechanism =>
        simp only [if_neg hown]
        exact hcarried hcarrier hcoupled

/-- The solutions of an arm and of the mechanisms of its group as one. -/
def join {α : Type} [Scalar α] (arm : Solution α) (mechanisms : List (Solution α))
    (tool : Pose α) : Solution α where
  joints := arm.joints ++ mechanisms.flatMap Solution.joints
  planes := mechanisms.flatMap Solution.planes ++ arm.planes ++ [arm.tcp * tool]
  configuration := arm.configuration
  faults := arm.faults ++ mechanisms.flatMap Solution.faults
  frame := arm.frame

theorem solve_eq_join {α : Type} [Scalar α] (group : Group α) (index : Nat) (target : Target α)
    (coupled : Option (Pose α)) (previous : Option (List α)) (parent : Pose α) :
    group.solve index target coupled previous parent =
      join (group.arm.solve target
          (framePose target.frame index coupled
            ((solveMechanisms parent group.externals target.external).map Solution.tcp))
          (previous.map (·.take group.arm.axisCount))
          (armParent parent group.externals
            ((solveMechanisms parent group.externals target.external).map Solution.tcp)))
        (solveMechanisms parent group.externals target.external) target.tool.tcp :=
  rfl

theorem planes_join_ne_nil {α : Type} [Scalar α] (arm : Solution α) (mechanisms : List (Solution α))
    (tool : Pose α) : (join arm mechanisms tool).planes ≠ [] := by
  simp [join]

theorem join_moved (hmotion : motion.Rigid) {arm : Solution ℝ} (hplanes : arm.planes ≠ [])
    (htcp : arm.tcp.Rigid) (mechanisms : List (Solution ℝ)) (tool : Pose ℝ) :
    join (arm.moved motion) (mechanisms.map (Solution.movePlanes motion)) tool =
      (join arm mechanisms tool).moved motion := by
  have hlast : (arm.moved motion).tcp * tool = motion * (arm.tcp * tool) := by
    rw [Solution.tcp_moved motion hplanes, Pose.mul_assoc hmotion htcp]
  rw [Solution.moved_eq motion (planes_join_ne_nil arm mechanisms tool), join, hlast,
    Solution.frame_moved motion hplanes]
  simp [Solution.movePlanes, join, Solution.planes_moved, List.flatMap_map, List.map_flatMap]

theorem solve_moved (hmotion : motion.Rigid) {group : Group ℝ} (hgroup : group.Rigid)
    {parent : Pose ℝ} (hparent : parent.Rigid) {target : Target ℝ} {index : Nat}
    {coupled : Option (Pose ℝ)}
    (hcarries : Carries target.frame index coupled group.externals.length)
    (hcoupled : ∀ plane ∈ coupled, plane.Rigid) (previous : Option (List ℝ)) :
    group.solve index ((Recast.moved motion).target target) (coupled.map (motion * ·)) previous
        (motion * parent) =
      (group.solve index target coupled previous parent).moved motion := by
  have htips := hgroup.tips hparent target.external
  have hmount : (armParent parent group.externals
      ((solveMechanisms parent group.externals target.external).map Solution.tcp)).Rigid :=
    rigid_armParent htips hparent
  have hexternal : ((Recast.moved motion).target target).external = target.external := rfl
  have hframe : ((Recast.moved motion).target target).frame = target.frame.moved motion := rfl
  have htool : ((Recast.moved motion).target target).tool = target.tool := rfl
  rw [← length_solveMechanisms parent group.externals target.external,
    ← List.length_map Solution.tcp] at hcarries
  rw [solve_eq_join, solve_eq_join, hexternal, hframe, htool,
    tips_moved hmotion hgroup.externals hparent, armParent_moved,
    framePose_moved hmotion hcarries hcoupled htips,
    group.arm.solve_moved hmotion hmount hgroup.arm,
    solveMechanisms_moved hmotion hgroup.externals hparent]
  exact join_moved hmotion (group.arm.planes_solve_ne_nil _ _ _ _)
    (group.arm.rigid_solve _ _ _ (hmount.mul hgroup.arm)).tcp _ _

end Group

/-! ### Cells -/

namespace Cell

/-- The mechanisms of the cell have one link per axis. -/
def Complete {α : Type} (cell : Cell α) : Prop :=
  ∀ group ∈ cell.groups, ∀ mechanism ∈ group.externals, mechanism.Complete

theorem complete_single {α : Type} [Scalar α] (arm : Arm α) : (Cell.single arm).Complete := by
  intro group hgroup mechanism hmechanism
  obtain rfl := List.mem_singleton.mp hgroup
  cases hmechanism

section Carriers

variable {α : Type} [Scalar α] {cell : Cell α} {targets : List (Target α)}
  {previous : Option (List (List α))}

/-- Whatever a group is solved to, it is its own solution for its target. -/
theorem exists_solve_of_solveAfter {links index : Nat} {solution : Solution α}
    (h : cell.solveAfter targets previous links index = some solution) :
    ∃ group target coupled, cell.groups[index]? = some group ∧ targets[index]? = some target ∧
      group.solve index target coupled (previous.bind (·[index]?)) cell.base = solution := by
  cases links with
  | zero => cases h
  | succ links =>
    cases hcarrier : carrier? targets index with
    | none =>
      rw [solveAfter_succ_free cell previous links hcarrier] at h
      obtain ⟨group, target, hgroup, htarget, hsolve⟩ := solveGroup_eq_some_iff.mp h
      exact ⟨group, target, none, hgroup, htarget, hsolve⟩
    | some other =>
      rw [solveAfter_succ_carried cell previous links hcarrier] at h
      obtain ⟨carrying, _, hcarried⟩ := Option.bind_eq_some_iff.mp h
      obtain ⟨_, _, _, _, hsolved⟩ := solveCarried_eq_some_iff.mp hcarried
      obtain ⟨group, target, hgroup, htarget, hsolve⟩ := solveGroup_eq_some_iff.mp hsolved
      exact ⟨group, target, _, hgroup, htarget, hsolve⟩

omit [Scalar α] in
/-- A frame that no other group carries is uncoupled or carried by a mechanism of its group. -/
theorem carries_alone (hframes : cell.checkFrames targets = .ok ()) {index : Nat} {group : Group α}
    {target : Target α} (hgroup : cell.groups[index]? = some group)
    (htarget : targets[index]? = some target) (hfree : carrier? targets index = none) :
    Group.Carries target.frame index none group.externals.length := by
  have hcheck := checkFrames_eq_ok_iff.mp hframes index target htarget
  intro other hcoupled
  rcases (carrier?_eq_none_iff_frame htarget).mp hfree with hnone | hself
  · rw [hnone] at hcoupled
    cases hcoupled
  · obtain rfl := Option.some.inj (hself.symm.trans hcoupled)
    rw [if_pos rfl]
    cases hplace : target.frame.coupledMechanism with
    | none => simp [checkFrame, hself, hgroup, hplace] at hcheck
    | some mechanism =>
      exact ⟨mechanism, rfl, lt_of_checkFrame_mechanism hcheck hself hplace hgroup⟩

/-- A solved group has a plane for every frame that it carries. -/
theorem carrierPlane?_isSome (hcomplete : cell.Complete)
    (hframes : cell.checkFrames targets = .ok ()) {index other links : Nat} {carrier : Group α}
    {target : Target α} {carrying : Solution α} (htarget : targets[index]? = some target)
    (hcoupled : target.frame.coupledGroup = some other)
    (hcarrier : cell.groups[other]? = some carrier)
    (hsolved : cell.solveAfter targets previous links other = some carrying) :
    (carrierPlane? carrier target.frame carrying).isSome := by
  have hcheck := checkFrames_eq_ok_iff.mp hframes index target htarget
  obtain ⟨held, asked, coupled, hheld, _, rfl⟩ := exists_solve_of_solveAfter hsolved
  obtain rfl := Option.some.inj (hcarrier.symm.trans hheld)
  unfold carrierPlane?
  cases hplace : target.frame.coupledMechanism with
  | none =>
    dsimp only
    rw [carrier.planes_getLast?, Option.isSome_some]
  | some mechanism =>
    have hlt := lt_of_checkFrame_mechanism hcheck hcoupled hplace hcarrier
    rw [← Group.length_solveMechanisms cell.base carrier.externals asked.external] at hlt
    have htip := Group.mechanismTip?_solve (hcomplete carrier (List.mem_of_getElem? hcarrier)) other
      asked coupled (previous.bind (·[other]?)) cell.base (List.getElem?_eq_getElem hlt)
    exact Option.isSome_of_mem htip

theorem carrier?_moved (motion : Pose α) (index : Nat) :
    carrier? (targets.map (Recast.moved motion).target) index = carrier? targets index := by
  rw [carrier?, List.getElem?_map, carrier?]
  cases targets[index]? <;> rfl

theorem checkFrames_moved (motion : Pose α) :
    (cell.moved motion).checkFrames (targets.map (Recast.moved motion).target) =
      cell.checkFrames targets := by
  have hentry : ∀ entry : Target α × Nat, (cell.moved motion).checkFrame
      ((Recast.moved motion).target entry.1).frame entry.2 =
        (cell.checkFrame entry.1.frame entry.2).mapError id := by
    intro entry
    cases hcheck : cell.checkFrame entry.1.frame entry.2 <;> exact hcheck
  rw [checkFrames, List.zipIdx_map, checkFrames]
  refine (forM_map_mapError hentry targets.zipIdx).trans ?_
  cases hall : forM targets.zipIdx fun entry ↦ cell.checkFrame entry.1.frame entry.2 <;>
    exact hall.symm

theorem carrierPlane?_moved (motion : Pose α) (carrier : Group α) (frame : Frame α)
    (solution : Solution α) :
    carrierPlane? carrier (frame.moved motion) (solution.moved motion) =
      (carrierPlane? carrier frame solution).map (motion * ·) := by
  have hplace : (frame.moved motion).coupledMechanism = frame.coupledMechanism := rfl
  unfold carrierPlane?
  rw [hplace, Solution.planes_moved]
  cases frame.coupledMechanism with
  | none => exact List.getLast?_map
  | some mechanism => cases carrier.mechanismPlane? mechanism <;> simp

end Carriers

section Moved

variable {cell : Cell ℝ} {targets : List (Target ℝ)} (hmotion : motion.Rigid)
  (hcell : cell.Rigid) (previous : Option (List (List ℝ)))

include hmotion hcell

theorem solveGroup_moved {index : Nat} (coupled : Option (Pose ℝ))
    (hcarries : ∀ {group : Group ℝ} {target : Target ℝ}, cell.groups[index]? = some group →
      targets[index]? = some target →
        Group.Carries target.frame index coupled group.externals.length)
    (hcoupled : ∀ plane ∈ coupled, plane.Rigid) :
    (cell.moved motion).solveGroup (targets.map (Recast.moved motion).target) previous index
        (coupled.map (motion * ·)) =
      (cell.solveGroup targets previous index coupled).map (Solution.moved motion) := by
  have hgroups : (cell.moved motion).groups = cell.groups := rfl
  rw [solveGroup, hgroups, List.getElem?_map, solveGroup]
  cases hgroup : cell.groups[index]? with
  | none => cases targets[index]? <;> rfl
  | some group =>
    cases htarget : targets[index]? with
    | none => rfl
    | some target =>
      exact congrArg some (group.solve_moved hmotion
        (hcell.groups group (List.mem_of_getElem? hgroup)) hcell.base (hcarries hgroup htarget)
        hcoupled _)

variable (hcomplete : cell.Complete)
  (htargets : ∀ target ∈ targets, RigidAttributes target.tool target.frame)

include hcomplete htargets

theorem solveAfter_moved (hframes : cell.checkFrames targets = .ok ()) {links : Nat} :
    ∀ index : Nat, (cell.moved motion).solveAfter (targets.map (Recast.moved motion).target)
        previous links index =
      (cell.solveAfter targets previous links index).map (Solution.moved motion) := by
  induction links with
  | zero => intro index; rfl
  | succ links ih =>
    intro index
    cases hcarrier : carrier? targets index with
    | none =>
      rw [solveAfter_succ_free _ previous links ((carrier?_moved motion index).trans hcarrier),
        solveAfter_succ_free cell previous links hcarrier]
      exact solveGroup_moved hmotion hcell previous none
        (fun hgroup htarget ↦ carries_alone hframes hgroup htarget hcarrier) (by simp)
    | some other =>
      rw [solveAfter_succ_carried _ previous links ((carrier?_moved motion index).trans hcarrier),
        ih, solveAfter_succ_carried cell previous links hcarrier]
      cases hsolved : cell.solveAfter targets previous links other with
      | none => rfl
      | some carrying =>
        obtain ⟨target, htarget, hcoupled, hne⟩ := carrier?_eq_some_iff.mp hcarrier
        have hgroups : (cell.moved motion).groups = cell.groups := rfl
        have hframe : ((Recast.moved motion).target target).frame = target.frame.moved motion := rfl
        obtain ⟨carrier, hother⟩ : ∃ carrier, cell.groups[other]? = some carrier :=
          ⟨_, List.getElem?_eq_getElem ((carrier?_eq_some_iff.mp hcarrier).lt hframes)⟩
        rw [Option.map_some, Option.bind_some, Option.bind_some, solveCarried, hgroups, hother,
          List.getElem?_map, htarget, Option.map_some, solveCarried, hother, htarget]
        dsimp only
        rw [hframe, carrierPlane?_moved]
        refine solveGroup_moved hmotion hcell previous _ ?_ ?_
        · intro group held _ hheld followed hfollowed
          obtain rfl := Option.some.inj (htarget.symm.trans hheld)
          obtain rfl := Option.some.inj (hcoupled.symm.trans hfollowed)
          rw [if_neg hne]
          exact carrierPlane?_isSome hcomplete hframes htarget hcoupled hother hsolved
        · intro plane hplane
          obtain ⟨group, asked, coupled, hgroup, hasked, rfl⟩ := exists_solve_of_solveAfter hsolved
          exact (hcell.groups group (List.mem_of_getElem? hgroup)).solve
            (htargets asked (List.mem_of_getElem? hasked)).tool hcell.base _ _ _ plane
            (mem_planes_of_carrierPlane? hplane)

/-- The moved cell solves the moved targets to the moved solutions. -/
theorem solve_moved : (cell.moved motion).solve (targets.map (Recast.moved motion).target) previous =
    (Recast.moved motion).outcome (List.map (Solution.moved motion))
      (cell.solve targets previous) := by
  have hgroups : (cell.moved motion).groups = cell.groups := rfl
  unfold Cell.solve
  dsimp only
  rw [List.length_map, checkFrames_moved, hgroups]
  by_cases hcount : targets.length = cell.groups.length
  · rw [if_neg (not_not.mpr hcount), if_neg (not_not.mpr hcount)]
    cases hframes : cell.checkFrames targets with
    | error error => rfl
    | ok =>
      have hafter : (cell.moved motion).solveAfter (targets.map (Recast.moved motion).target)
          previous cell.groups.length = fun index ↦
            (cell.solveAfter targets previous cell.groups.length index).map
              (Solution.moved motion) :=
        funext (solveAfter_moved hmotion hcell previous hcomplete htargets hframes)
      dsimp only
      rw [hafter, mapM_map_result]
      cases (List.range cell.groups.length).mapM (cell.solveAfter targets previous _) <;> rfl
  · rw [if_pos hcount, if_pos hcount]
    rfl

end Moved

end Cell

/-! ### Motions -/

/-- No motion tells whether the cell was moved. -/
theorem Recast.faithful_moved {cell : Cell ℝ} (hmotion : motion.Rigid) (hcell : cell.Rigid)
    (hcomplete : cell.Complete) :
    (Recast.moved motion).Faithful cell (cell.moved motion) RigidAttributes
      fun solution ↦ solution.planes ≠ [] ∧ solution.frame.Rigid where
  groups := rfl
  key _ := rfl
  limits _ := rfl
  waits _ := rfl
  joints := Solution.joints_moved motion
  configuration := Solution.configuration_moved motion
  faults := Solution.faults_moved motion
  relative := by
    rintro placed given ⟨hplanes, hframe⟩ ⟨hgiven, _⟩
    have hplaced : ((Recast.moved motion).solution placed).frame = motion * placed.frame :=
      placed.frame_moved motion hplanes
    have hmoved : ((Recast.moved motion).solution given).tcp = motion * given.tcp :=
      given.tcp_moved motion hgiven
    rw [hplaced, hmoved, Pose.inverse_mul_mul hmotion hframe]
  solve htargets previous := Cell.solve_moved hmotion hcell previous hcomplete htargets
  solved := by
    intro targets htargets previous solutions hsolve solution hsolution
    refine ⟨?_, (hcell.of_solve_attributes htargets hsolve solution hsolution).2⟩
    obtain ⟨hcount, hframes⟩ := Cell.checked_of_solve hsolve
    obtain ⟨index, hindex⟩ := List.mem_iff_getElem?.mp hsolution
    obtain ⟨group, target, coupled, _, _, rfl, _⟩ :=
      Cell.exists_solve_of_getElem? hcount hframes hsolve hindex
    exact Group.planes_join_ne_nil _ _ _

end Toolpath
