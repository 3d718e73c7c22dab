import Toolpath.Proofs.Exact.Positions

/-!
Following a path over exact numbers. The value of an axis that is less than half a turn away from
the previous one is the only one of its angle that `nearest` can find (`Angle.nearest_eq`), so that
a branch is continued to the same position from wherever it is near (`Angle.follow_eq`). On a path
the redundant axis stays where it is (`Solver.redundancy_follow`). Which quaternion stands for the
rotation of the flange makes no difference to a branch (`Solver.inverse_congr`).
-/

set_option autoImplicit false
set_option relaxedAutoImplicit false

namespace Toolpath

/-! ### Whole turns -/

/-- What is less than a half away from a whole number is rounded to it. -/
theorem Exact.roundHalfAway_eq {x : ℝ} {k : ℤ} (h : |x - k| < 1 / 2) : roundHalfAway x = k := by
  obtain ⟨hlow, hhigh⟩ := abs_lt.mp h
  unfold roundHalfAway
  split_ifs
  · rw [Int.floor_eq_iff]
    constructor <;> linarith
  · rw [Int.ceil_eq_iff]
    constructor <;> linarith

namespace Angle

/-- Only one value of an angle is less than half a turn away from the previous value. -/
theorem nearest_eq {value previous found : ℝ} (hfound : (found : Real.Angle) = value)
    (hnear : |found - previous| < Real.pi) : nearest value previous = found := by
  obtain ⟨turns, hturns⟩ := Real.Angle.angle_eq_iff_two_pi_dvd_sub.mp hfound
  have hround : Exact.roundHalfAway ((previous - value) / Scalar.fullTurn) = turns := by
    refine Exact.roundHalfAway_eq ?_
    have hrest : (previous - value) / Scalar.fullTurn - turns =
        -((found - previous) / (2 * Real.pi)) := by
      rw [Exact.fullTurn_eq]
      have hpi := Real.pi_ne_zero
      field_simp
      linear_combination hturns
    rw [hrest, abs_neg, abs_div, abs_of_pos Real.two_pi_pos, div_lt_iff₀ Real.two_pi_pos]
    linarith
  have hvalue : nearest value previous = value +
      (Exact.roundHalfAway ((previous - value) / Scalar.fullTurn) : ℝ) * Scalar.two * Real.pi :=
    if_pos (Exact.isFinite_eq_true previous)
  rw [hvalue, hround, Exact.two_eq]
  linear_combination -hturns

theorem nearest_self {value previous : ℝ} (h : (previous : Real.Angle) = value) :
    nearest value previous = previous :=
  nearest_eq h (by rw [sub_self, abs_zero]; exact Real.pi_pos)

/-- Every axis is less than half a turn away from its other value. -/
def Near (values others : List ℝ) : Prop :=
  List.Forall₂ (fun value other : ℝ ↦ |value - other| < Real.pi) values others

/-- A position is continued to the only one that is near. -/
theorem follow_eq {values previous found : List ℝ} (hfound : Turned found values)
    (hnear : Near found previous) : follow values previous = found := by
  induction hfound generalizing previous with
  | nil =>
    cases hnear
    rfl
  | @cons value other values others hvalue _ ih =>
    rcases hnear with - | ⟨hhead, htail⟩
    rw [follow, ih htail, nearest_eq ((hvalue.trans (coe_normalize other).symm)) hhead]

end Angle

/-! ### The redundant axis -/

/-- On a path the elbow stays where it is. -/
theorem Solver.redundancy_follow (solver : Solver ℝ) (flange : Pose ℝ)
    (configuration : Configuration) {previous : List ℝ}
    (hlength : previous.length = solver.axisCount) :
    solver.redundancy (Angle.follow
      (solver.inverse flange configuration (solver.redundancy previous)).joints previous) =
        solver.redundancy previous := by
  rcases solver with arm | arm | arm
  · rfl
  · rfl
  · match previous, hlength with
    | first :: second :: third :: rest, _ =>
      show Angle.nearest (Angle.normalize (settle third)) third = third
      refine Angle.nearest_self ?_
      rw [Angle.coe_normalize, settle_eq_normalize, Angle.coe_normalize]

/-! ### One flange, two quaternions -/

theorem Rotation.Same.inverse {p q : Rotation ℝ} (h : p.Same q) : p.inverse.Same q.inverse := by
  rcases h with rfl | rfl
  · exact .refl _
  · exact .inr rfl

namespace Pose.Same

variable {a b : Pose ℝ}

theorem zAxis (h : a.Same b) : a.zAxis = b.zAxis :=
  h.2.apply Vec3.zAxis

theorem inverse (h : a.Same b) : a.inverse.Same b.inverse := by
  refine ⟨?_, h.2.inverse⟩
  show a.rotation.inverse.apply (-a.position) = b.rotation.inverse.apply (-b.position)
  rw [h.1, h.2.inverse.apply]

end Pose.Same

section Flange

variable {flange other : Pose ℝ}

theorem SphericalWrist.inverse_congr (arm : SphericalWrist ℝ) (h : flange.Same other)
    (configuration : Configuration) :
    arm.inverse flange configuration = arm.inverse other configuration := by
  have hcentre : arm.wristCentre flange = arm.wristCentre other := by
    rw [wristCentre, wristCentre, h.1, h.zAxis]
  simp only [inverse, wristRotation, hcentre, h.2.basis]

theorem RedundantArm.inverse_congr (arm : RedundantArm ℝ) (h : flange.Same other)
    (configuration : Configuration) (redundancy : ℝ) :
    arm.inverse flange configuration redundancy = arm.inverse other configuration redundancy := by
  have hcentre : arm.wristCentre flange = arm.wristCentre other := by
    rw [wristCentre, wristCentre, h.1, h.zAxis]
  simp only [inverse, wristRotation, hcentre, h.2.basis]

namespace OffsetWrist

theorem planeAxes_congr (arm : OffsetWrist ℝ) (h : flange.Same other) (elbow : Bool) :
    arm.planeAxes flange elbow = arm.planeAxes other elbow := by
  have hcosine : arm.elbowCosine flange = arm.elbowCosine other := by
    simp only [elbowCosine, h.1]
  have hwrist : ∀ upper fore : Pose ℝ,
      (upper * fore * flange).rotation.basis = (upper * fore * other).rotation.basis :=
    fun upper fore ↦ ((Pose.Same.refl (upper * fore)).mul h).2.basis
  simp only [planeAxes, hcosine, h.1, hwrist]

theorem inverse_congr (arm : OffsetWrist ℝ) (h : flange.Same other)
    (configuration : Configuration) :
    arm.inverse flange configuration = arm.inverse other configuration := by
  have hone : ∀ shoulder, arm.axisOne flange shoulder = arm.axisOne other shoulder := by
    intro shoulder
    simp only [axisOne, h.1, h.zAxis]
  have hfive : ∀ q1 positive, arm.axisFive flange q1 positive = arm.axisFive other q1 positive := by
    intro q1 positive
    simp only [axisFive, h.1]
  have hsix : ∀ q1 q5, axisSix flange q1 q5 = axisSix other q1 q5 := by
    intro q1 q5
    simp only [axisSix, h.inverse.2.basis]
  have hplane : ∀ q1 q5 q6 elbow, arm.planeAxes (arm.forearmPose flange q1 q5 q6) elbow =
      arm.planeAxes (arm.forearmPose other q1 q5 q6) elbow := fun _ _ _ ↦
    arm.planeAxes_congr (((Pose.Same.refl _).mul h).mul (Pose.Same.refl _))
  simp only [inverse, hone, hfive, hsix, hplane]

end OffsetWrist

/-- A branch depends on the flange as a motion. -/
theorem Solver.inverse_congr (solver : Solver ℝ) (h : flange.Same other)
    (configuration : Configuration) (redundancy : ℝ) :
    solver.inverse flange configuration redundancy =
      solver.inverse other configuration redundancy := by
  rcases solver with arm | arm | arm
  · exact arm.inverse_congr h configuration
  · exact arm.inverse_congr h configuration
  · exact arm.inverse_congr h configuration redundancy

end Flange

end Toolpath
