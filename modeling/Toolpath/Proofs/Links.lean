import Mathlib.Tactic.SplitIfs
import Toolpath.Arm.Basic

/-!
Solvers and the table of their links. `Solver.links` are the links that `forward` follows; those of
an arm have the lengths and the offsets of its joints (`map_length_links_solverFor`,
`map_offset_links_solverFor`).

The inverse reads some of these entries: the lemmas `inverse_of_entries` list them for each topology.
Where it asks for the rotation of a part of the chain only the twists matter
(`rotation_chainEnd_congr`). Each topology names the entries that are the parameters of its arms; for
some topologies the inverse reads further ones (`inverse_solverFor_of_entries`).
-/

set_option autoImplicit false
set_option relaxedAutoImplicit false

namespace Toolpath

variable {α : Type} [Scalar α]

/-! ### Rotations along a chain -/

/-- The rotations along a chain are those of its twists, whatever the lengths and offsets are. -/
theorem map_rotation_chainFrom {links others : List (Link α)}
    (h : links.map Link.twist = others.map Link.twist) {angles : List α} :
    ∀ {start other : Pose α}, start.rotation = other.rotation →
      (chainFrom start links angles).map Pose.rotation =
        (chainFrom other others angles).map Pose.rotation := by
  induction links generalizing others angles with
  | nil =>
    intro start other _
    rw [List.map_eq_nil_iff.mp h.symm, chainFrom, chainFrom]
    all_goals simp
  | cons link links ih =>
    intro start other hstart
    cases others with
    | nil => simp at h
    | cons first rest =>
      rw [List.map_cons, List.map_cons, List.cons.injEq] at h
      cases angles with
      | nil => rfl
      | cons angle angles =>
        have hnext : (start * link.transform angle).rotation =
            (other * first.transform angle).rotation := by
          show start.rotation * (.aboutZ angle * .aboutX link.twist) =
            other.rotation * (.aboutZ angle * .aboutX first.twist)
          rw [hstart, h.1]
        rw [chainFrom, chainFrom, List.map_cons, List.map_cons, hnext, ih h.2 hnext]

theorem rotation_chainEnd_congr {links others : List (Link α)}
    (h : links.map Link.twist = others.map Link.twist) (angles : List α) :
    (chainEnd links angles).rotation = (chainEnd others angles).rotation := by
  have hmap : (chainFrom 1 links angles).map Pose.rotation =
      (chainFrom 1 others angles).map Pose.rotation := map_rotation_chainFrom h rfl
  have hlast (poses : List (Pose α)) :
      (poses.getLastD 1).rotation = (poses.map Pose.rotation).getLastD (1 : Pose α).rotation := by
    rw [List.getLastD_eq_getLast?, List.getLastD_eq_getLast?, List.getLast?_map]
    cases poses.getLast? <;> rfl
  rw [chainEnd, chainEnd, hlast, hlast, chain, chain, hmap]

/-! ### Entries that the inverse reads -/

namespace SphericalWrist

/-- Of the links the inverse reads the lengths 0 to 2 and the offsets 0, 3 and 5 alone. -/
theorem inverse_of_entries {arm other : SphericalWrist α} (ha0 : arm.lengths 0 = other.lengths 0)
    (ha1 : arm.lengths 1 = other.lengths 1) (ha2 : arm.lengths 2 = other.lengths 2)
    (hd0 : arm.offsets 0 = other.offsets 0) (hd3 : arm.offsets 3 = other.offsets 3)
    (hd5 : arm.offsets 5 = other.offsets 5) (flange : Pose α) (configuration : Configuration) :
    arm.inverse flange configuration = other.inverse flange configuration := by
  have hrotation (position : List α) :
      arm.wristRotation flange position = other.wristRotation flange position := by
    rw [wristRotation, wristRotation, rotation_chainEnd_congr]
    rfl
  have hposition (c : Vec3 α) (shoulder elbow : Bool) :
      arm.position c shoulder elbow = other.position c shoulder elbow := by
    simp only [position, axisTwo, elbowTriangle, forearm, ha0, ha1, ha2, hd0, hd3]
  have hcentre : arm.wristCentre flange = other.wristCentre flange := by
    rw [wristCentre, wristCentre, hd5]
  rw [inverse, inverse, hcentre, ha0]
  simp only [hposition, hrotation]

end SphericalWrist

namespace OffsetWrist

/-- The inverse reads the first link and the links of the last two axes as a whole; of the others it
reads the lengths 1 and 2 and the offset 3. -/
theorem inverse_of_entries {arm other : OffsetWrist α} (ha0 : arm.lengths 0 = other.lengths 0)
    (ha1 : arm.lengths 1 = other.lengths 1) (ha2 : arm.lengths 2 = other.lengths 2)
    (ha4 : arm.lengths 4 = other.lengths 4) (ha5 : arm.lengths 5 = other.lengths 5)
    (hd0 : arm.offsets 0 = other.offsets 0) (hd3 : arm.offsets 3 = other.offsets 3)
    (hd4 : arm.offsets 4 = other.offsets 4) (hd5 : arm.offsets 5 = other.offsets 5)
    (flange : Pose α) (configuration : Configuration) :
    arm.inverse flange configuration = other.inverse flange configuration := by
  have hforearm (q1 q5 q6 : α) :
      arm.forearmPose flange q1 q5 q6 = other.forearmPose flange q1 q5 q6 := by
    simp only [forearmPose, link, ha0, ha4, ha5, hd0, hd4, hd5]
  have hplane (forearm : Pose α) (elbow : Bool) :
      arm.planeAxes forearm elbow = other.planeAxes forearm elbow := by
    simp only [planeAxes, elbowCosine, ha1, ha2]
    rfl
  have hone (shoulder : Bool) : arm.axisOne flange shoulder = other.axisOne flange shoulder := by
    rw [axisOne, axisOne, hd3, hd5]
  have hfive (q1 : α) (positive : Bool) :
      arm.axisFive flange q1 positive = other.axisFive flange q1 positive := by
    rw [axisFive, axisFive, hd3, hd5]
  simp only [inverse, hone, hfive, hforearm, hplane]

end OffsetWrist

namespace RedundantArm

/-- The inverse reads the offsets 0, 2, 3, 4 and 6. -/
theorem inverse_of_entries {arm other : RedundantArm α} (hd0 : arm.offsets 0 = other.offsets 0)
    (hd2 : arm.offsets 2 = other.offsets 2) (hd3 : arm.offsets 3 = other.offsets 3)
    (hd4 : arm.offsets 4 = other.offsets 4) (hd6 : arm.offsets 6 = other.offsets 6)
    (flange : Pose α) (configuration : Configuration) (redundancy : α) :
    arm.inverse flange configuration redundancy =
      other.inverse flange configuration redundancy := by
  have hrotation (position : List α) :
      arm.wristRotation flange position = other.wristRotation flange position := by
    rw [wristRotation, wristRotation, rotation_chainEnd_congr]
    rfl
  have hpoint (q3 q4 : α) : arm.shoulderPoint q3 q4 = other.shoulderPoint q3 q4 := by
    simp only [shoulderPoint, link, hd2, hd3, hd4]
  have hcentre : arm.wristCentre flange = other.wristCentre flange := by
    rw [wristCentre, wristCentre, hd0, hd6]
  have hfour (centre : Vec3 α) (elbow : Bool) :
      arm.axisFour centre elbow = other.axisFour centre elbow := by
    rw [axisFour, axisFour, hd2, hd4]
  simp only [inverse, hcentre, hfour, hpoint, hrotation]

end RedundantArm

/-! ### The table of links -/

namespace Solver

/-- The links that `forward` follows. -/
def links : Solver α → List (Link α)
  | sphericalWrist arm => arm.links
  | offsetWrist arm => arm.links
  | redundant arm => arm.links

theorem forward_eq_chain (solver : Solver α) (values : List α) :
    solver.forward values = chain solver.links values := by
  rcases solver with arm | arm | arm <;> rfl

end Solver

theorem map_range_entry {joints : List (Joint α)} {count : Nat} (h : joints.length = count)
    (entry : Joint α → α) :
    (List.range count).map (fun place ↦ (joints[place]?.map entry).getD 0) = joints.map entry := by
  refine List.ext_getElem (by simp [h]) fun place hplace hjoints ↦ ?_
  rw [List.length_map] at hjoints
  simp [hjoints]

/-- A constructed arm has a joint for each axis and the solver of its joints. -/
theorem Arm.of_build {name : String} {manufacturer : Manufacturer} {topology : Topology}
    {joints : List (Joint α)} {base : Pose α} {payload : α} {arm : Arm α}
    (h : Arm.build name manufacturer topology joints base payload = .ok arm) :
    joints.length = topology.axisCount ∧ arm.solver = Arm.solverFor topology joints ∧
      arm.joints = joints := by
  rw [build] at h
  split_ifs at h with hcount
  rw [← Except.ok.inj h]
  exact ⟨hcount, rfl, rfl⟩

section SolverFor

variable {topology : Topology} {joints others : List (Joint α)}

theorem topology_solverFor (topology : Topology) (joints : List (Joint α)) :
    (Arm.solverFor topology joints).topology = topology := by
  cases topology <;> rfl

/-- The solver of an arm holds the offsets of its joints. -/
theorem map_offset_links_solverFor (h : joints.length = topology.axisCount) :
    (Arm.solverFor topology joints).links.map Link.offset = joints.map Joint.offset := by
  rw [← map_range_entry h]
  cases topology <;> rfl

/-- The solver of an arm holds the lengths of its joints, where its topology has any. -/
theorem map_length_links_solverFor (h : joints.length = topology.axisCount)
    (hne : topology ≠ .redundant) :
    (Arm.solverFor topology joints).links.map Link.length = joints.map Joint.length := by
  rw [← map_range_entry h]
  cases topology with
  | sphericalWrist => rfl
  | offsetWrist => rfl
  | redundant => exact absurd rfl hne

theorem map_length_links_redundant (joints others : List (Joint α)) :
    (Arm.solverFor .redundant joints).links.map Link.length =
      (Arm.solverFor .redundant others).links.map Link.length := rfl

theorem map_twist_links_solverFor (topology : Topology) (joints others : List (Joint α)) :
    (Arm.solverFor topology joints).links.map Link.twist =
      (Arm.solverFor topology others).links.map Link.twist := by
  cases topology <;> rfl

end SolverFor

/-! ### Named parameters -/

namespace Topology

/-- The axes whose link lengths are parameters of the arm, as the solver names them. -/
def namedLengths : Topology → List Nat
  | sphericalWrist => [0, 1, 2]
  | offsetWrist => [1, 2]
  | redundant => []

/-- The axes whose link offsets are parameters of the arm, as the solver names them. -/
def namedOffsets : Topology → List Nat
  | sphericalWrist => [0, 3, 5]
  | offsetWrist => [0, 3, 4, 5]
  | redundant => [0, 2, 4, 6]

/-- The other axes whose link lengths the inverse reads. -/
def furtherLengths : Topology → List Nat
  | sphericalWrist => []
  | offsetWrist => [0, 4, 5]
  | redundant => []

/-- The other axes whose link offsets the inverse reads. -/
def furtherOffsets : Topology → List Nat
  | sphericalWrist => []
  | offsetWrist => []
  | redundant => [3]

end Topology

/-- Two rows of joints have the same entry at each of the places. -/
def AgreeAt {α : Type} (entry : Joint α → α) (places : List Nat) (joints others : List (Joint α)) :
    Prop :=
  ∀ place ∈ places, joints[place]?.map entry = others[place]?.map entry

theorem AgreeAt.append {α : Type} {entry : Joint α → α} {places more : List Nat}
    {joints others : List (Joint α)} (h : AgreeAt entry places joints others)
    (hmore : AgreeAt entry more joints others) : AgreeAt entry (places ++ more) joints others :=
  List.forall_mem_append.mpr ⟨h, hmore⟩

theorem inverse_solverFor_of_entries {topology : Topology}
    {joints others : List (Joint α)}
    (hlengths : AgreeAt Joint.length (topology.namedLengths ++ topology.furtherLengths) joints
      others)
    (hoffsets : AgreeAt Joint.offset (topology.namedOffsets ++ topology.furtherOffsets) joints
      others) (flange : Pose α) (configuration : Configuration) (redundancy : α) :
    (Arm.solverFor topology joints).inverse flange configuration redundancy =
      (Arm.solverFor topology others).inverse flange configuration redundancy := by
  have hlength : ∀ place ∈ topology.namedLengths ++ topology.furtherLengths,
      (joints[place]?.map Joint.length).getD 0 = (others[place]?.map Joint.length).getD 0 :=
    fun place hplace ↦ by rw [hlengths place hplace]
  have hoffset : ∀ place ∈ topology.namedOffsets ++ topology.furtherOffsets,
      (joints[place]?.map Joint.offset).getD 0 = (others[place]?.map Joint.offset).getD 0 :=
    fun place hplace ↦ by rw [hoffsets place hplace]
  cases topology with
  | sphericalWrist =>
    exact SphericalWrist.inverse_of_entries (hlength 0 (by decide)) (hlength 1 (by decide))
      (hlength 2 (by decide)) (hoffset 0 (by decide)) (hoffset 3 (by decide))
      (hoffset 5 (by decide)) flange configuration
  | offsetWrist =>
    exact OffsetWrist.inverse_of_entries (hlength 0 (by decide)) (hlength 1 (by decide))
      (hlength 2 (by decide)) (hlength 4 (by decide)) (hlength 5 (by decide))
      (hoffset 0 (by decide)) (hoffset 3 (by decide)) (hoffset 4 (by decide))
      (hoffset 5 (by decide)) flange configuration
  | redundant =>
    exact RedundantArm.inverse_of_entries (hoffset 0 (by decide)) (hoffset 2 (by decide))
      (hoffset 3 (by decide)) (hoffset 4 (by decide)) (hoffset 6 (by decide)) flange configuration
      redundancy

end Toolpath
