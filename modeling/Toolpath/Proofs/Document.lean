import Toolpath.Cell.Document
import Toolpath.Proofs.Exact.Number
import Toolpath.Proofs.Links
import Toolpath.Proofs.Sequencing

/-!
Cells that are read from documents. A cell that is read is well formed (`Cell.WellFormed`): each
group has an arm with the joints that its topology needs, tracks, positioners and custom mechanisms
have axes as their constructors ask for them, and the joints have ranges (`Joint.WellRanged`). A
document that is flawed in one of these points (`Cell.Flawed`) is rejected, wherever the flaw stands
in it.

A range is rejected where its high end is below its low end. An end that is no number is not below
anything: such a range is read, and no value is in it.
-/

set_option autoImplicit false
set_option relaxedAutoImplicit false

namespace Toolpath

/-- Numbers in which degrees keep their order in radians, and in which nothing that is computed from
an unordered value can be compared. -/
class DegreeScalar (α : Type) [Scalar α] : Prop extends TolerantScalar α where
  ofDegrees_le {x y : α} : x ≤ y → Scalar.ofDegrees x ≤ Scalar.ofDegrees y
  refl_of_ofDegrees {x : α} : Scalar.ofDegrees x ≤ Scalar.ofDegrees x → x ≤ x
  refl_of_sub_le {x y z : α} : x - y ≤ z → x ≤ x
  refl_of_le_add {x y z : α} : z ≤ x + y → x ≤ x

instance : DegreeScalar Exact.Number where
  ofDegrees_le {x y} h := by
    obtain ⟨a, b, rfl, rfl, hab⟩ := Exact.Number.le_iff.mp h
    exact Exact.Number.le_iff.mpr ⟨_, _, rfl, rfl, Exact.ofDegrees_le hab⟩
  refl_of_ofDegrees {x} h := by
    cases x with
    | nan => exact absurd h (Exact.Number.not_nan_le _)
    | real a => exact Exact.Number.refl_iff.mpr ⟨a, rfl⟩
  refl_of_sub_le {x y z} h := by
    cases x with
    | nan => exact absurd h (Exact.Number.not_nan_le _)
    | real a => exact Exact.Number.refl_iff.mpr ⟨a, rfl⟩
  refl_of_le_add {x y z} h := by
    cases x with
    | nan => exact absurd h (Exact.Number.not_le_nan _)
    | real a => exact Exact.Number.refl_iff.mpr ⟨a, rfl⟩

open Yaml

/-! ### What is well formed -/

section Cells

variable {α : Type} [Scalar α]

/-- The range of a joint is not empty, and values can be clamped into it, as long as both of its
ends are numbers; otherwise no value is in it. -/
structure Joint.WellRanged (joint : Joint α) : Prop where
  le_iff : joint.low ≤ joint.high ↔ joint.low ≤ joint.low ∧ joint.high ≤ joint.high
  isInRange_clamp (h : joint.low ≤ joint.high) (value : α) :
    joint.isInRange (joint.clamp value) = true
  isInRange_eq_false (h : ¬ joint.low ≤ joint.high) (value : α) : joint.isInRange value = false

/-- There is a joint for each axis of the topology, and the solver holds the entries of the joints.
An arm with a redundant axis has no lengths. -/
structure Arm.WellFormed (arm : Arm α) : Prop where
  length_joints : arm.joints.length = arm.solver.topology.axisCount
  lengths (h : arm.solver.topology ≠ .redundant) :
    arm.solver.links.map Link.length = arm.joints.map Joint.length
  offsets : arm.solver.links.map Link.offset = arm.joints.map Joint.offset
  wellRanged : ∀ joint ∈ arm.joints, joint.WellRanged

namespace Mechanism

/-- The axes of a mechanism are as its kind asks for them. -/
def HasAxes (mechanism : Mechanism α) : Prop :=
  match mechanism.kind with
  | .track => 1 ≤ mechanism.axisCount ∧ mechanism.axisCount ≤ 3 ∧
      ∀ joint ∈ mechanism.joints, joint.kind = .prismatic
  | .positioner axes => 1 ≤ mechanism.axisCount ∧ axes.length = mechanism.axisCount ∧
      ∀ joint ∈ mechanism.joints, joint.kind = .revolute
  | .custom axes => axes.length = mechanism.axisCount

structure WellFormed (mechanism : Mechanism α) : Prop where
  hasAxes : mechanism.HasAxes
  wellRanged : ∀ joint ∈ mechanism.joints, joint.WellRanged

end Mechanism

structure Group.WellFormed (group : Group α) : Prop where
  arm : group.arm.WellFormed
  externals : ∀ mechanism ∈ group.externals, mechanism.WellFormed

structure Cell.WellFormed (cell : Cell α) : Prop where
  groups_ne_nil : cell.groups ≠ []
  groups : ∀ group ∈ cell.groups, group.WellFormed
  /-- A group is solved as the one that stands at its place. -/
  solve_getElem? {targets : List (Target α)} {previous : Option (List (List α))}
    {solutions : List (Solution α)} (h : cell.solve targets previous = .ok solutions) {index : Nat}
    {group : Group α} (hgroup : cell.groups[index]? = some group) :
    ∃ target coupled, targets[index]? = some target ∧ solutions[index]? =
      some (group.solve index target coupled (previous.bind (·[index]?)) cell.base)

end Cells

/-! ### Flaws of a document -/

/-- The nodes that are listed in a field, none where it holds no list. -/
def Yaml.Node.listed (node : Node) (field : String) : List Node :=
  ((node.field? field).bind Node.list?).getD []

section Flaws

variable (α : Type) [Scalar α] [DecimalText α]

/-- The range ends before it starts. -/
def Joint.Flawed (node : Node) : Prop :=
  ∃ low high : α, node.number "min" = .ok low ∧ node.number "max" = .ok high ∧ high < low

/-- The number of joints is not that of the topology, or a joint is flawed. -/
def Arm.Flawed (node : Node) : Prop :=
  (∃ topology, Topology.ofNode (α := α) node = .ok topology ∧
    (node.listed "joints").length ≠ topology.axisCount) ∨
  ∃ joint ∈ node.listed "joints", Joint.Flawed α joint

/-- The numbers of joints and of axis poses do not suit the type of a mechanism. -/
def Mechanism.Misfit (type : String) (joints axes : Nat) : Prop :=
  match type with
  | "track" => joints = 0 ∨ 3 < joints
  | "positioner" => joints = 0 ∨ joints ≠ axes
  | "custom" => joints ≠ axes
  | _ => False

/-- Joints and axis poses do not suit the type of the mechanism, or a joint is flawed. -/
def Mechanism.Flawed (node : Node) : Prop :=
  (∃ type, (node.get "type").string? = some type ∧
    Misfit type (node.listed "joints").length (node.listed "axes").length) ∨
  ∃ joint ∈ node.listed "joints", Joint.Flawed α joint

def Group.Flawed (node : Node) : Prop :=
  (∃ arm, node.field? "arm" = some arm ∧ Arm.Flawed α arm) ∨
  ∃ mechanism ∈ node.listed "externals", Mechanism.Flawed α mechanism

def Cell.Flawed (document : Node) : Prop :=
  document.listed "groups" = [] ∨ ∃ group ∈ document.listed "groups", Group.Flawed α group

end Flaws

/-! ### Reading -/

section Reading

variable {α : Type} [Scalar α] [DecimalText α] {node : Node} {field : String}

namespace Yaml.Node

omit [Scalar α] [DecimalText α] in
theorem required_eq_ok_iff {value : Node} :
    (node.required field : Except (DocumentError α) Node) = .ok value ↔
      node.field? field = some value := by
  rw [required]
  cases node.field? field <;> simp

omit [Scalar α] [DecimalText α] in
theorem asList_eq_ok_iff {items : List Node} :
    (node.asList field : Except (DocumentError α) (List Node)) = .ok items ↔
      node.list? = some items := by
  rw [asList]
  cases node.list? <;> simp

omit [Scalar α] [DecimalText α] in
theorem listed_of_items {items : List Node}
    (h : (node.items field : Except (DocumentError α) (List Node)) = .ok items) :
    node.listed field = items := by
  obtain ⟨value, hvalue, hitems⟩ := bind_eq_ok_iff.mp h
  rw [listed, required_eq_ok_iff.mp hvalue, Option.bind_some, asList_eq_ok_iff.mp hitems,
    Option.getD_some]

end Yaml.Node

/-! ### Joints -/

namespace Joint

section Ranges

variable [DegreeScalar α]

omit [DecimalText α] in
theorem wellRanged_of_refl {joint : Joint α}
    (h : joint.low ≤ joint.low → joint.high ≤ joint.high → joint.low ≤ joint.high) :
    joint.WellRanged where
  le_iff := ⟨OrderedScalar.refl_of_le, fun hends ↦ h hends.1 hends.2⟩
  isInRange_clamp := isInRange_clamp
  isInRange_eq_false := by
    intro hle value
    by_contra hinside
    rw [Bool.not_eq_false, isInRange, Bool.and_eq_true, decide_eq_true_iff, decide_eq_true_iff]
      at hinside
    exact hle (h (DegreeScalar.refl_of_sub_le hinside.1) (DegreeScalar.refl_of_le_add hinside.2))

end Ranges

/-- The readings that make a joint. -/
theorem exists_of_ofNode {kind : JointKind} {joint : Joint α} (h : ofNode kind node = .ok joint) :
    ∃ low high : α, node.number "min" = .ok low ∧ node.number "max" = .ok high ∧ ¬ high < low ∧
      joint.kind = kind ∧ ((joint.low = low ∧ joint.high = high) ∨
        (joint.low = Scalar.ofDegrees low ∧ joint.high = Scalar.ofDegrees high)) := by
  rw [ofNode] at h
  obtain ⟨low, hlow, h⟩ := bind_eq_ok_iff.mp h
  obtain ⟨high, hhigh, h⟩ := bind_eq_ok_iff.mp h
  obtain ⟨maxSpeed, hspeed, h⟩ := bind_eq_ok_iff.mp h
  by_cases hempty : high < low
  · rw [if_pos hempty] at h
    cases h
  rw [if_neg hempty] at h
  refine ⟨low, high, hlow, hhigh, hempty, ?_⟩
  cases kind with
  | revolute =>
    obtain ⟨length, _, h⟩ := bind_eq_ok_iff.mp h
    obtain ⟨offset, _, h⟩ := bind_eq_ok_iff.mp h
    rw [← Except.ok.inj h]
    exact ⟨rfl, .inr ⟨rfl, rfl⟩⟩
  | prismatic =>
    rw [← Except.ok.inj h]
    exact ⟨rfl, .inl ⟨rfl, rfl⟩⟩

/-- A joint of a rotary axis is read from any range that does not end before it starts. -/
theorem ofNode_revolute {length offset low high maxSpeed : α}
    (hlow : node.number "min" = .ok low) (hhigh : node.number "max" = .ok high)
    (hspeed : node.number "max_speed" = .ok maxSpeed) (hrange : ¬ high < low)
    (hlength : node.numberD "a" 0 = .ok length) (hoffset : node.numberD "d" 0 = .ok offset) :
    ofNode .revolute node = .ok (.revoluteDegrees length offset low high maxSpeed) := by
  rw [ofNode, hlow, ok_bind, hhigh, ok_bind, hspeed, ok_bind, if_neg hrange]
  simp only [hlength, hoffset, ok_bind]
  rfl

theorem not_flawed_of_ofNode {kind : JointKind} {joint : Joint α}
    (h : ofNode kind node = .ok joint) : ¬ Flawed α node := by
  rintro ⟨low, high, hlow, hhigh, hempty⟩
  obtain ⟨first, last, hfirst, hlast, hrange, _⟩ := exists_of_ofNode h
  rw [hlow] at hfirst
  rw [hhigh] at hlast
  rw [Except.ok.inj hfirst, Except.ok.inj hlast] at hempty
  exact hrange hempty

theorem wellRanged_of_ofNode [DegreeScalar α] {kind : JointKind} {joint : Joint α}
    (h : ofNode kind node = .ok joint) : joint.WellRanged := by
  obtain ⟨low, high, _, _, hrange, _, hends⟩ := exists_of_ofNode h
  refine wellRanged_of_refl fun hlow hhigh ↦ ?_
  rcases hends with ⟨hfirst, hlast⟩ | ⟨hfirst, hlast⟩
  · rw [hfirst] at hlow ⊢
    rw [hlast] at hhigh ⊢
    exact OrderedScalar.le_of_not_lt hhigh hlow hrange
  · rw [hfirst] at hlow ⊢
    rw [hlast] at hhigh ⊢
    exact DegreeScalar.ofDegrees_le (OrderedScalar.le_of_not_lt
      (DegreeScalar.refl_of_ofDegrees hhigh) (DegreeScalar.refl_of_ofDegrees hlow) hrange)

section Rows

variable {kind : Node → JointKind} {joints : List (Joint α)}

theorem mapM_of_listOf (h : listOf kind node = .ok joints) :
    (node.listed "joints").mapM (fun joint ↦ ofNode (kind joint) joint) = .ok joints := by
  obtain ⟨items, hitems, h⟩ := bind_eq_ok_iff.mp h
  rwa [Node.listed_of_items hitems]

theorem length_of_listOf (h : listOf kind node = .ok joints) :
    joints.length = (node.listed "joints").length :=
  length_of_mapM (mapM_of_listOf h)

theorem not_flawed_of_listOf (h : listOf kind node = .ok joints) :
    ∀ joint ∈ node.listed "joints", ¬ Flawed α joint := by
  intro joint hjoint
  obtain ⟨_, _, hread⟩ := exists_result_of_mapM (mapM_of_listOf h) hjoint
  exact not_flawed_of_ofNode hread

theorem wellRanged_of_listOf [DegreeScalar α] (h : listOf kind node = .ok joints) :
    ∀ joint ∈ joints, joint.WellRanged := by
  intro joint hjoint
  obtain ⟨_, _, hread⟩ := exists_entry_of_mapM (mapM_of_listOf h) hjoint
  exact wellRanged_of_ofNode hread

theorem kind_of_listOf {kind : JointKind} (h : listOf (fun _ ↦ kind) node = .ok joints) :
    ∀ joint ∈ joints, joint.kind = kind := by
  intro joint hjoint
  obtain ⟨_, _, hread⟩ := exists_entry_of_mapM (mapM_of_listOf h) hjoint
  obtain ⟨_, _, _, _, _, hkind, _⟩ := exists_of_ofNode hread
  exact hkind

end Rows

end Joint

/-! ### Arms -/

namespace Arm

theorem exists_of_ofNode {arm : Arm α} (h : ofNode node = .ok arm) :
    ∃ topology joints, Topology.ofNode (α := α) node = .ok topology ∧
      Joint.listOf (fun _ ↦ .revolute) node = .ok joints ∧ joints.length = topology.axisCount ∧
      arm.solver = solverFor topology joints ∧ arm.joints = joints := by
  obtain ⟨manufacturer, _, h⟩ := bind_eq_ok_iff.mp h
  obtain ⟨topology, htopology, h⟩ := bind_eq_ok_iff.mp h
  obtain ⟨joints, hjoints, h⟩ := bind_eq_ok_iff.mp h
  obtain ⟨base, _, h⟩ := bind_eq_ok_iff.mp h
  obtain ⟨payload, _, h⟩ := bind_eq_ok_iff.mp h
  exact ⟨topology, joints, htopology, hjoints, of_build (mapError_eq_ok_iff.mp h)⟩

theorem not_flawed_of_ofNode {arm : Arm α} (h : ofNode node = .ok arm) : ¬ Flawed α node := by
  obtain ⟨topology, joints, htopology, hjoints, hcount, _⟩ := exists_of_ofNode h
  rintro (⟨other, hother, hne⟩ | ⟨joint, hjoint, hflawed⟩)
  · rw [htopology] at hother
    rw [← Joint.length_of_listOf hjoints, ← Except.ok.inj hother] at hne
    exact hne hcount
  · exact Joint.not_flawed_of_listOf hjoints joint hjoint hflawed

theorem wellFormed_of_ofNode [DegreeScalar α] {arm : Arm α} (h : ofNode node = .ok arm) :
    arm.WellFormed := by
  obtain ⟨topology, joints, htopology, hjoints, hcount, hsolver, hsame⟩ := exists_of_ofNode h
  have htopology : arm.solver.topology = topology := by
    rw [hsolver, topology_solverFor]
  exact
    { length_joints := by rw [hsame, htopology, hcount]
      lengths := fun hne ↦ by
        rw [hsolver, hsame, map_length_links_solverFor hcount (htopology ▸ hne)]
      offsets := by rw [hsolver, hsame, map_offset_links_solverFor hcount]
      wellRanged := hsame ▸ Joint.wellRanged_of_listOf hjoints }

end Arm

/-! ### Mechanisms -/

namespace Mechanism

section Constructors

variable {name : String} {joints : List (Joint α)} {axes : List (Pose α)} {base : Pose α}
  {movesRobot : Bool} {mechanism : Mechanism α}

omit [Scalar α] [DecimalText α] in
theorem of_buildTrack (h : buildTrack name joints base movesRobot = .ok mechanism) :
    mechanism.kind = .track ∧ mechanism.joints = joints ∧
      ¬ (joints.length = 0 ∨ 3 < joints.length) := by
  rw [buildTrack] at h
  split_ifs at h with hcount hkinds
  rw [← Except.ok.inj h]
  exact ⟨rfl, rfl, hcount⟩

omit [Scalar α] [DecimalText α] in
theorem of_buildPositioner (h : buildPositioner name joints axes base movesRobot = .ok mechanism) :
    mechanism.kind = .positioner axes ∧ mechanism.joints = joints ∧
      ¬ (joints.length = 0 ∨ joints.length ≠ axes.length) := by
  rw [buildPositioner] at h
  split_ifs at h with hcount hkinds
  rw [← Except.ok.inj h]
  exact ⟨rfl, rfl, hcount⟩

omit [Scalar α] [DecimalText α] in
theorem of_buildCustom (h : buildCustom name joints axes base movesRobot = .ok mechanism) :
    mechanism.kind = .custom axes ∧ mechanism.joints = joints ∧ ¬ joints.length ≠ axes.length := by
  rw [buildCustom] at h
  split_ifs at h with hcount
  rw [← Except.ok.inj h]
  exact ⟨rfl, rfl, hcount⟩

end Constructors

theorem length_of_axesOf {axes : List (Pose α)} (h : axesOf node = .ok axes) :
    axes.length = (node.listed "axes").length := by
  obtain ⟨items, hitems, h⟩ := bind_eq_ok_iff.mp h
  rw [Node.listed_of_items hitems, length_of_mapM h]

/-- The readings that make a mechanism of a type. -/
inductive ReadFrom (node : Node) (mechanism : Mechanism α) : String → Prop where
  | track {name : String} {joints : List (Joint α)} {base : Pose α} {movesRobot : Bool}
      (hjoints : Joint.listOf (fun _ ↦ .prismatic) node = .ok joints)
      (hbuild : buildTrack name joints base movesRobot = .ok mechanism) :
      ReadFrom node mechanism "track"
  | positioner {name : String} {joints : List (Joint α)} {axes : List (Pose α)} {base : Pose α}
      {movesRobot : Bool} (hjoints : Joint.listOf (fun _ ↦ .revolute) node = .ok joints)
      (haxes : axesOf node = .ok axes)
      (hbuild : buildPositioner name joints axes base movesRobot = .ok mechanism) :
      ReadFrom node mechanism "positioner"
  | custom {name : String} {joints : List (Joint α)} {axes : List (Pose α)} {base : Pose α}
      {movesRobot : Bool} (hjoints : Joint.listOf JointKind.ofNode node = .ok joints)
      (haxes : axesOf node = .ok axes)
      (hbuild : buildCustom name joints axes base movesRobot = .ok mechanism) :
      ReadFrom node mechanism "custom"

theorem exists_readFrom_of_ofNode {mechanism : Mechanism α} (h : ofNode node = .ok mechanism) :
    ∃ type, (node.get "type").string? = some type ∧ ReadFrom node mechanism type := by
  rw [ofNode] at h
  cases htype : (node.get "type").string? with
  | none =>
    rw [htype] at h
    cases h
  | some type =>
    rw [htype] at h
    refine ⟨type, rfl, ?_⟩
    obtain ⟨base, _, h⟩ := bind_eq_ok_iff.mp h
    split at h
    · obtain ⟨joints, hjoints, h⟩ := bind_eq_ok_iff.mp h
      exact .track hjoints (mapError_eq_ok_iff.mp h)
    · obtain ⟨joints, hjoints, h⟩ := bind_eq_ok_iff.mp h
      obtain ⟨axes, haxes, h⟩ := bind_eq_ok_iff.mp h
      exact .positioner hjoints haxes (mapError_eq_ok_iff.mp h)
    · obtain ⟨joints, hjoints, h⟩ := bind_eq_ok_iff.mp h
      obtain ⟨axes, haxes, h⟩ := bind_eq_ok_iff.mp h
      exact .custom hjoints haxes (mapError_eq_ok_iff.mp h)
    · cases h

namespace ReadFrom

variable {mechanism : Mechanism α} {type : String}

theorem not_misfit (h : ReadFrom node mechanism type) :
    ¬ Misfit type (node.listed "joints").length (node.listed "axes").length := by
  cases h with
  | track hjoints hbuild =>
    rw [← Joint.length_of_listOf hjoints]
    exact (of_buildTrack hbuild).2.2
  | positioner hjoints haxes hbuild =>
    rw [← Joint.length_of_listOf hjoints, ← length_of_axesOf haxes]
    exact (of_buildPositioner hbuild).2.2
  | custom hjoints haxes hbuild =>
    rw [← Joint.length_of_listOf hjoints, ← length_of_axesOf haxes]
    exact (of_buildCustom hbuild).2.2

/-- The joints are read, each of some kind. -/
theorem exists_listOf (h : ReadFrom node mechanism type) :
    ∃ kind, Joint.listOf kind node = .ok mechanism.joints := by
  cases h with
  | track hjoints hbuild => exact ⟨_, (of_buildTrack hbuild).2.1 ▸ hjoints⟩
  | positioner hjoints haxes hbuild => exact ⟨_, (of_buildPositioner hbuild).2.1 ▸ hjoints⟩
  | custom hjoints haxes hbuild => exact ⟨_, (of_buildCustom hbuild).2.1 ▸ hjoints⟩

theorem hasAxes (h : ReadFrom node mechanism type) : mechanism.HasAxes := by
  cases h with
  | track hjoints hbuild =>
    obtain ⟨hkind, rfl, hcount⟩ := of_buildTrack hbuild
    rw [HasAxes, hkind]
    exact ⟨Nat.one_le_iff_ne_zero.mpr fun hzero ↦ hcount (.inl hzero),
      Nat.le_of_not_lt fun hmany ↦ hcount (.inr hmany), Joint.kind_of_listOf hjoints⟩
  | positioner hjoints haxes hbuild =>
    obtain ⟨hkind, rfl, hcount⟩ := of_buildPositioner hbuild
    rw [HasAxes, hkind]
    exact ⟨Nat.one_le_iff_ne_zero.mpr fun hzero ↦ hcount (.inl hzero),
      (not_not.mp fun hne ↦ hcount (.inr hne)).symm, Joint.kind_of_listOf hjoints⟩
  | custom hjoints haxes hbuild =>
    obtain ⟨hkind, rfl, hcount⟩ := of_buildCustom hbuild
    rw [HasAxes, hkind]
    exact (not_not.mp hcount).symm

end ReadFrom

theorem not_flawed_of_ofNode {mechanism : Mechanism α} (h : ofNode node = .ok mechanism) :
    ¬ Flawed α node := by
  obtain ⟨type, htype, hread⟩ := exists_readFrom_of_ofNode h
  rintro (⟨other, hother, hmisfit⟩ | ⟨joint, hjoint, hflawed⟩)
  · rw [htype] at hother
    rw [← Option.some.inj hother] at hmisfit
    exact hread.not_misfit hmisfit
  · obtain ⟨_, hjoints⟩ := hread.exists_listOf
    exact Joint.not_flawed_of_listOf hjoints joint hjoint hflawed

theorem wellFormed_of_ofNode [DegreeScalar α] {mechanism : Mechanism α}
    (h : ofNode node = .ok mechanism) : mechanism.WellFormed := by
  obtain ⟨_, _, hread⟩ := exists_readFrom_of_ofNode h
  obtain ⟨_, hjoints⟩ := hread.exists_listOf
  exact ⟨hread.hasAxes, Joint.wellRanged_of_listOf hjoints⟩

end Mechanism

/-! ### Groups and cells -/

namespace Group

theorem exists_of_ofNode {group : Group α} (h : ofNode node = .ok group) :
    ∃ arm, node.field? "arm" = some arm ∧ Arm.ofNode arm = .ok group.arm ∧
      (node.listed "externals").mapM Mechanism.ofNode = .ok group.externals := by
  obtain ⟨nested, hnested, h⟩ := bind_eq_ok_iff.mp h
  obtain ⟨arm, harm, h⟩ := bind_eq_ok_iff.mp h
  cases hfield : node.field? "externals" with
  | none =>
    rw [hfield] at h
    rw [← Except.ok.inj h]
    refine ⟨nested, Node.required_eq_ok_iff.mp hnested, harm, ?_⟩
    rw [Node.listed, hfield]
    rfl
  | some value =>
    rw [hfield] at h
    obtain ⟨items, hitems, h⟩ := bind_eq_ok_iff.mp h
    obtain ⟨externals, hexternals, h⟩ := bind_eq_ok_iff.mp h
    rw [← Except.ok.inj h]
    refine ⟨nested, Node.required_eq_ok_iff.mp hnested, harm, ?_⟩
    rw [Node.listed, hfield, Option.bind_some, Node.asList_eq_ok_iff.mp hitems]
    exact hexternals

theorem not_flawed_of_ofNode {group : Group α} (h : ofNode node = .ok group) :
    ¬ Flawed α node := by
  obtain ⟨arm, hnode, harm, hexternals⟩ := exists_of_ofNode h
  rintro (⟨other, hother, hflawed⟩ | ⟨mechanism, hmechanism, hflawed⟩)
  · rw [hnode] at hother
    rw [← Option.some.inj hother] at hflawed
    exact Arm.not_flawed_of_ofNode harm hflawed
  · obtain ⟨_, _, hread⟩ := exists_result_of_mapM hexternals hmechanism
    exact Mechanism.not_flawed_of_ofNode hread hflawed

theorem wellFormed_of_ofNode [DegreeScalar α] {group : Group α} (h : ofNode node = .ok group) :
    group.WellFormed := by
  obtain ⟨_, _, harm, hexternals⟩ := exists_of_ofNode h
  refine ⟨Arm.wellFormed_of_ofNode harm, fun mechanism hmechanism ↦ ?_⟩
  obtain ⟨_, _, hread⟩ := exists_entry_of_mapM hexternals hmechanism
  exact Mechanism.wellFormed_of_ofNode hread

end Group

namespace Cell

theorem mapM_of_ofNode {document : Node} {cell : Cell α} (h : ofNode document = .ok cell) :
    (document.listed "groups").mapM Group.ofNode = .ok cell.groups ∧ cell.groups ≠ [] := by
  obtain ⟨base, _, h⟩ := bind_eq_ok_iff.mp h
  obtain ⟨items, hitems, h⟩ := bind_eq_ok_iff.mp h
  obtain ⟨groups, hgroups, h⟩ := bind_eq_ok_iff.mp h
  by_cases hempty : groups.isEmpty = true
  · rw [if_pos hempty] at h
    cases h
  · rw [if_neg hempty] at h
    rw [← Except.ok.inj h, Node.listed_of_items hitems]
    exact ⟨hgroups, mt List.isEmpty_iff.mpr hempty⟩

theorem not_flawed_of_ofNode {document : Node} {cell : Cell α} (h : ofNode document = .ok cell) :
    ¬ Flawed α document := by
  obtain ⟨hgroups, hne⟩ := mapM_of_ofNode h
  rintro (hempty | ⟨group, hgroup, hflawed⟩)
  · rw [hempty] at hgroups
    exact hne (Except.ok.inj hgroups).symm
  · obtain ⟨_, _, hread⟩ := exists_result_of_mapM hgroups hgroup
    exact Group.not_flawed_of_ofNode hread hflawed

theorem wellFormed_of_ofNode [DegreeScalar α] {document : Node} {cell : Cell α}
    (h : ofNode document = .ok cell) : cell.WellFormed := by
  obtain ⟨hgroups, hne⟩ := mapM_of_ofNode h
  refine ⟨hne, fun group hgroup ↦ ?_, exists_solve_of_group⟩
  obtain ⟨_, _, hread⟩ := exists_entry_of_mapM hgroups hgroup
  exact Group.wellFormed_of_ofNode hread

/-- So is the cell of a text, which is that of its first document. -/
theorem wellFormed_of_ofYaml [DegreeScalar α] {text : String} {cell : Cell α}
    (h : ofYaml text = .ok cell) : cell.WellFormed := by
  rw [ofYaml] at h
  split at h
  · cases h
  · cases h
  · exact wellFormed_of_ofNode h

/-- Reading checks a cell: a flawed document is rejected, and the cell of any other document that is
read is well formed. Ranges are checked as far as their ends can be compared. -/
theorem ofNode_checks [DegreeScalar α] (document : Node) :
    (Flawed α document →
      ∃ error, (ofNode document : Except (DocumentError α) (Cell α)) = .error error) ∧
    ∀ cell : Cell α, ofNode document = .ok cell → cell.WellFormed := by
  refine ⟨fun hflawed ↦ ?_, fun cell hcell ↦ wellFormed_of_ofNode hcell⟩
  cases hread : (ofNode document : Except (DocumentError α) (Cell α)) with
  | error error => exact ⟨error, rfl⟩
  | ok cell => exact absurd hflawed (not_flawed_of_ofNode hread)

end Cell

end Reading

section Example

open Exact

/-- A joint from the given low end to 150 degrees. -/
def jointDocument (low : Node) : Node :=
  .mapping
    [(.string "min", low), (.string "max", .integer 150), (.string "max_speed", .integer 100)]

/-- An arm with six joints from the given low end on. -/
def armDocument (low : Node) : Node :=
  .mapping [(.string "joints", .list (List.replicate 6 (jointDocument low)))]

def cellDocument (low : Node) : Node :=
  .mapping [(.string "groups", .list [.mapping [(.string "arm", armDocument low)]])]

/-- The joint that is read where the low end is no number. -/
noncomputable def openJoint : Joint Number :=
  .revoluteDegrees 0 0 .nan (DecimalText.ofWritten (.ofInt 150))
    (DecimalText.ofWritten (.ofInt 100))

noncomputable def openArm : Arm Number :=
  ⟨"Robot", .other, Arm.solverFor .sphericalWrist (List.replicate 6 openJoint),
    List.replicate 6 openJoint, 1, 0⟩

theorem Arm.ofNode_openArm : ofNode (armDocument (.real ".nan" .nan)) = .ok openArm := by
  have hjoint : Joint.ofNode .revolute (jointDocument (.real ".nan" .nan)) = .ok openJoint :=
    Joint.ofNode_revolute rfl rfl rfl
      (fun h ↦ Number.not_le_nan _ (OrderedScalar.le_of_lt h)) rfl rfl
  have hjoints : Joint.listOf (fun _ ↦ .revolute) (armDocument (.real ".nan" .nan)) =
      .ok (List.replicate 6 openJoint) :=
    mapM_eq_ok_iff.mpr (congrArg (List.replicate 6) hjoint)
  rw [ofNode, hjoints]
  rfl

theorem Cell.flawed_cellDocument : Flawed Number (cellDocument (.integer 200)) := by
  have hrange : (DecimalText.ofWritten (.ofInt 150) : Number) <
      DecimalText.ofWritten (.ofInt 200) := by
    show (((150 : ℕ) : ℝ) * 10 ^ (0 : ℤ)) < ((200 : ℕ) : ℝ) * 10 ^ (0 : ℤ)
    norm_num
  have hjoint : Joint.Flawed Number (jointDocument (.integer 200)) := ⟨_, _, rfl, rfl, hrange⟩
  have harm : Arm.Flawed Number (armDocument (.integer 200)) :=
    .inr ⟨_, List.mem_replicate.mpr ⟨by decide, rfl⟩, hjoint⟩
  exact .inr ⟨_, List.mem_singleton.mpr rfl, .inl ⟨_, rfl, harm⟩⟩

/-- A low end that is no number is read, and nothing is in the range; one past 150 degrees is
rejected. -/
theorem Cell.ofNode_checks_cellDocument :
    (∃ cell : Cell Number, ofNode (cellDocument (.real ".nan" .nan)) = .ok cell ∧
      cell.WellFormed ∧ ∀ group ∈ cell.groups, ∀ joint ∈ group.arm.joints, ∀ value,
        joint.isInRange value = false) ∧
    ∃ error, (ofNode (cellDocument (.integer 200)) : Except (DocumentError Number) (Cell Number)) =
      .error error := by
  have hgroup : Group.ofNode (.mapping [(.string "arm", armDocument (.real ".nan" .nan))]) =
      .ok ⟨openArm, []⟩ := by
    rw [Group.ofNode]
    show Arm.ofNode (armDocument (.real ".nan" .nan)) >>= _ = _
    rw [Arm.ofNode_openArm]
    rfl
  have hcell : ofNode (cellDocument (.real ".nan" .nan)) = .ok ⟨"Cell", 1, [⟨openArm, []⟩]⟩ := by
    have hgroups : [Node.mapping [(.string "arm", armDocument (.real ".nan" .nan))]].mapM
        Group.ofNode = .ok [⟨openArm, []⟩] :=
      mapM_eq_ok_iff.mpr (congrArg (fun read ↦ [read]) hgroup)
    rw [ofNode]
    show [Node.mapping [(.string "arm", armDocument (.real ".nan" .nan))]].mapM Group.ofNode >>=
      _ = _
    rw [hgroups]
    rfl
  have hwell := (ofNode_checks _).2 _ hcell
  refine ⟨⟨_, hcell, hwell, fun group hgroup joint hjoint ↦ ?_⟩, (ofNode_checks _).1
    flawed_cellDocument⟩
  have hranges := (hwell.groups group hgroup).arm.wellRanged joint hjoint
  rw [List.mem_singleton.mp hgroup] at hjoint
  refine hranges.isInRange_eq_false ?_
  rw [List.eq_of_mem_replicate hjoint]
  exact Number.not_nan_le _

end Example

end Toolpath
