import Toolpath.Proofs.Exact.Turning
import Toolpath.Proofs.Coupling.Resolution

/-!
The planes and frames of a cell are rigid. A cell is `Rigid` when the poses that it is built from
are: bases of arms and mechanisms and the axes of chains. The planes of every solution are then
rigid, whatever frame the targets are solved in (`Group.Rigid.solve`), and so are the frames that
are carried by such planes (`Cell.Rigid.of_solve`).
-/

set_option autoImplicit false
set_option relaxedAutoImplicit false

namespace Toolpath

/-- The planes of the solution are rigid. -/
def Solution.Rigid (solution : Solution ℝ) : Prop :=
  ∀ plane ∈ solution.planes, plane.Rigid

theorem Solution.Rigid.tcp {solution : Solution ℝ} (h : solution.Rigid) : solution.tcp.Rigid := by
  rw [Solution.tcp, List.getLastD_eq_getLast?]
  cases hlast : solution.planes.getLast? with
  | none => exact Pose.rigid_one
  | some plane => exact h plane (List.mem_of_getLast? hlast)

/-! ### Mechanisms -/

/-- The poses of the axes of a chain. -/
def MechanismKind.axes {α : Type} : MechanismKind α → List (Pose α)
  | .track => []
  | .positioner axes => axes
  | .custom axes => axes

structure Mechanism.Rigid (mechanism : Mechanism ℝ) : Prop where
  base : mechanism.base.Rigid
  axes : ∀ axis ∈ mechanism.kind.axes, axis.Rigid

theorem Joint.rigid_motion (joint : Joint ℝ) (value : ℝ) : (joint.motion value).Rigid := by
  unfold Joint.motion
  cases joint.kind with
  | revolute => exact Rotation.proper_aboutZ value
  | prismatic => exact Pose.rigid_translation 0 0 value

namespace Mechanism

theorem rigid_carriages {values : List ℝ} : ∀ pose ∈ carriages values, pose.Rigid := by
  unfold carriages
  split <;> simp [Pose.rigid_translation]

theorem rigid_chainPlanes {axes : List (Pose ℝ)} {joints : List (Joint ℝ)} {values : List ℝ}
    (haxes : ∀ axis ∈ axes, axis.Rigid) : ∀ {start : Pose ℝ}, start.Rigid →
      ∀ plane ∈ chainPlanes start axes joints values, plane.Rigid := by
  intro start hstart
  fun_induction chainPlanes start axes joints values with
  | case1 start axis axes joint joints value values pose ih =>
    rw [List.forall_mem_cons] at haxes
    have hpose : pose.Rigid := (hstart.mul haxes.1).mul (joint.rigid_motion value)
    exact List.forall_mem_cons.mpr ⟨hpose, ih haxes.2 hpose⟩
  | case2 => intro plane hplane; cases hplane

theorem Rigid.solve {mechanism : Mechanism ℝ} (h : mechanism.Rigid) (values : List ℝ)
    {parent : Pose ℝ} (hparent : parent.Rigid) : (mechanism.solve values parent).Rigid := by
  have hbase : (parent * mechanism.base).Rigid := hparent.mul h.base
  have haxes := h.axes
  refine List.forall_mem_cons.mpr ⟨hbase, ?_⟩
  unfold axisPlanes
  cases hkind : mechanism.kind with
  | track =>
    rintro plane hplane
    obtain ⟨carriage, hcarriage, rfl⟩ := List.mem_map.mp hplane
    exact hbase.mul (rigid_carriages carriage hcarriage)
  | positioner axes =>
    rw [hkind] at haxes
    exact rigid_chainPlanes haxes hbase
  | custom axes =>
    rw [hkind] at haxes
    exact rigid_chainPlanes haxes hbase

end Mechanism

/-! ### Groups -/

/-- The arm stands on the cell or on a mechanism by a rigid pose. -/
structure Group.Rigid (group : Group ℝ) : Prop where
  arm : group.arm.base.Rigid
  externals : ∀ mechanism ∈ group.externals, mechanism.Rigid

/-- The poses of the target are rigid. -/
structure Target.Rigid (target : Target ℝ) : Prop where
  goal : ∀ {pose : Pose ℝ} {forced : Option Configuration} {motion : Motion},
    target.goal = .cartesian pose forced motion → pose.Rigid
  frame : target.frame.pose.Rigid
  tool : target.tool.tcp.Rigid

theorem Arm.rigid_solve (arm : Arm ℝ) (target : Target ℝ) (frame : Pose ℝ)
    (previous : Option (List ℝ)) {parent : Pose ℝ} (hbase : (parent * arm.base).Rigid) :
    (arm.solve target frame previous parent).Rigid := by
  refine List.forall_mem_cons.mpr ⟨hbase, fun plane hplane ↦ ?_⟩
  obtain ⟨joint, hjoint, rfl⟩ := List.mem_map.mp hplane
  exact hbase.mul (arm.solver.rigid_forward _ joint hjoint)

namespace Group

theorem rigid_solveMechanisms {mechanisms : List (Mechanism ℝ)}
    (h : ∀ mechanism ∈ mechanisms, mechanism.Rigid) {parent : Pose ℝ} (hparent : parent.Rigid) :
    ∀ values : List ℝ, ∀ solution ∈ solveMechanisms parent mechanisms values, solution.Rigid := by
  induction mechanisms with
  | nil => intro values solution hsolution; cases hsolution
  | cons mechanism rest ih =>
    intro values
    rw [List.forall_mem_cons] at h
    exact List.forall_mem_cons.mpr ⟨h.1.solve _ hparent, ih h.2 _⟩

theorem rigid_armParent {mechanisms : List (Mechanism ℝ)} {tips : List (Pose ℝ)}
    (htips : ∀ tip ∈ tips, tip.Rigid) :
    ∀ {parent : Pose ℝ}, parent.Rigid → (armParent parent mechanisms tips).Rigid := by
  unfold armParent
  induction mechanisms generalizing tips with
  | nil => intro parent hparent; exact hparent
  | cons mechanism rest ih =>
    intro parent hparent
    rcases tips with - | ⟨tip, tips⟩
    · exact hparent
    · rw [List.forall_mem_cons] at htips
      rw [List.zip_cons_cons, List.foldl_cons]
      refine ih htips.2 ?_
      dsimp only
      split_ifs
      · exact htips.1
      · exact hparent

theorem rigid_framePose {frame : Frame ℝ} {index : Nat} {coupled : Option (Pose ℝ)}
    {tips : List (Pose ℝ)} (hframe : frame.pose.Rigid) (hcoupled : ∀ plane ∈ coupled, plane.Rigid)
    (htips : ∀ tip ∈ tips, tip.Rigid) : (framePose frame index coupled tips).Rigid := by
  have hcarried : ∀ {carrier : Option (Pose ℝ)}, (∀ plane ∈ carrier, plane.Rigid) →
      ((carrier.map (· * frame.pose)).getD frame.pose).Rigid := by
    intro carrier hcarrier
    rcases carrier with - | plane
    · exact hframe
    · exact (hcarrier plane rfl).mul hframe
  unfold framePose
  split
  · exact hframe
  · refine hcarried fun plane hplane ↦ ?_
    split_ifs at hplane
    · exact htips plane (List.mem_of_getElem? hplane)
    · exact hcoupled plane hplane
  · exact hcarried hcoupled

/-- What the arm of the group is mounted on for a target. -/
def mount {α : Type} [Scalar α] (group : Group α) (target : Target α) (parent : Pose α) : Pose α :=
  armParent parent group.externals
    ((solveMechanisms parent group.externals target.external).map Solution.tcp) * group.arm.base

variable {group : Group ℝ} {target : Target ℝ} {parent : Pose ℝ}

theorem Rigid.tips (h : group.Rigid) (hparent : parent.Rigid) (values : List ℝ) :
    ∀ tip ∈ (solveMechanisms parent group.externals values).map Solution.tcp, tip.Rigid := by
  intro tip htip
  obtain ⟨solution, hsolution, rfl⟩ := List.mem_map.mp htip
  exact (rigid_solveMechanisms h.externals hparent values solution hsolution).tcp

theorem Rigid.mount (h : group.Rigid) (hparent : parent.Rigid) :
    (group.mount target parent).Rigid :=
  (rigid_armParent (h.tips hparent target.external) hparent).mul h.arm

/-- The frame that the target is solved in does not matter. -/
theorem Rigid.solve (h : group.Rigid) (htool : target.tool.tcp.Rigid) (hparent : parent.Rigid)
    (index : Nat) (coupled : Option (Pose ℝ)) (previous : Option (List ℝ)) :
    (group.solve index target coupled previous parent).Rigid := by
  intro plane hplane
  simp only [Group.solve, List.mem_append, List.mem_singleton] at hplane
  rcases hplane with (hmechanism | harm) | rfl
  · obtain ⟨solution, hsolution, hmem⟩ := List.mem_flatMap.mp hmechanism
    exact rigid_solveMechanisms h.externals hparent _ solution hsolution plane hmem
  · exact group.arm.rigid_solve _ _ _ (h.mount hparent) plane harm
  · exact (group.arm.rigid_solve _ _ _ (h.mount hparent)).tcp.mul htool

theorem Rigid.frame (h : group.Rigid) (hparent : parent.Rigid) (hframe : target.frame.pose.Rigid)
    {coupled : Option (Pose ℝ)} (hcoupled : ∀ plane ∈ coupled, plane.Rigid) (index : Nat)
    (previous : Option (List ℝ)) :
    (group.solve index target coupled previous parent).frame.Rigid :=
  rigid_framePose hframe hcoupled (h.tips hparent target.external)

end Group

/-! ### Cells -/

structure Cell.Rigid (cell : Cell ℝ) : Prop where
  base : cell.base.Rigid
  groups : ∀ group ∈ cell.groups, group.Rigid

theorem Cell.rigid_single {arm : Arm ℝ} (h : arm.base.Rigid) : (Cell.single arm).Rigid := by
  refine ⟨Pose.rigid_one, fun group hgroup ↦ ?_⟩
  obtain rfl := List.mem_singleton.mp hgroup
  exact ⟨h, fun _ hmechanism ↦ by cases hmechanism⟩

/-- The poses of the attributes of a target are rigid. -/
structure RigidAttributes (tool : Tool ℝ) (frame : Frame ℝ) : Prop where
  frame : frame.pose.Rigid
  tool : tool.tcp.Rigid

/-- Every plane and every frame of a solved step is rigid where the frames and the tools are. -/
theorem Cell.Rigid.of_solve_attributes {cell : Cell ℝ} (h : cell.Rigid) {targets : List (Target ℝ)}
    (htargets : ∀ target ∈ targets, RigidAttributes target.tool target.frame)
    {previous : Option (List (List ℝ))} {solutions : List (Solution ℝ)}
    (hsolve : cell.solve targets previous = .ok solutions) :
    ∀ solution ∈ solutions, solution.Rigid ∧ solution.frame.Rigid := by
  obtain ⟨hcount, hframes⟩ := checked_of_solve hsolve
  have hplanes : ∀ solution ∈ solutions, solution.Rigid := by
    intro solution hsolution
    obtain ⟨index, hindex⟩ := List.mem_iff_getElem?.mp hsolution
    obtain ⟨group, target, coupled, hgroup, htarget, rfl, _⟩ :=
      exists_solve_of_getElem? hcount hframes hsolve hindex
    have hrigid := htargets target (List.mem_of_getElem? htarget)
    exact (h.groups group (List.mem_of_getElem? hgroup)).solve hrigid.tool h.base _ _ _
  intro solution hsolution
  refine ⟨hplanes solution hsolution, ?_⟩
  obtain ⟨index, hindex⟩ := List.mem_iff_getElem?.mp hsolution
  obtain ⟨group, target, coupled, hgroup, htarget, rfl, hcoupled⟩ :=
    exists_solve_of_getElem? hcount hframes hsolve hindex
  have hrigid := htargets target (List.mem_of_getElem? htarget)
  refine (h.groups group (List.mem_of_getElem? hgroup)).frame h.base hrigid.frame ?_ _ _
  intro plane hplane
  obtain ⟨carrying, hcarrying, hmem⟩ := hcoupled plane hplane
  exact hplanes carrying hcarrying plane hmem

theorem Cell.Rigid.of_solve {cell : Cell ℝ} (h : cell.Rigid) {targets : List (Target ℝ)}
    (htargets : ∀ target ∈ targets, target.Rigid) {previous : Option (List (List ℝ))}
    {solutions : List (Solution ℝ)} (hsolve : cell.solve targets previous = .ok solutions) :
    ∀ solution ∈ solutions, solution.Rigid ∧ solution.frame.Rigid :=
  h.of_solve_attributes (fun target htarget ↦
    ⟨(htargets target htarget).frame, (htargets target htarget).tool⟩) hsolve

end Toolpath
