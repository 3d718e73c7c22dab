import Mathlib.Analysis.SpecialFunctions.Trigonometric.Angle
import Toolpath.Proofs.Exact.Rigid
import Toolpath.Arm.Solver

/-!
Whole turns of the axes. Rows of axis values are `Turned` when they agree up to whole turns at
every place. What `follow` does to a row is to turn it (`Angle.turned_follow`), and an arm stands
the same way on rows that are turned (`Solver.same_forward`). The joint frames of an arm are rigid
(`Solver.rigid_forward`).
-/

set_option autoImplicit false
set_option relaxedAutoImplicit false

namespace Toolpath

/-! ### Axis values up to whole turns -/

namespace Angle

/-- The same axis values up to whole turns. -/
def Turned (values others : List ℝ) : Prop :=
  List.Forall₂ (fun value other : ℝ ↦ (value : Real.Angle) = other) values others

theorem turned_refl (values : List ℝ) : Turned values values :=
  List.forall₂_same.mpr fun _ _ ↦ rfl

theorem Turned.trans {values others last : List ℝ} (h : Turned values others)
    (h' : Turned others last) : Turned values last := by
  unfold Turned at h h' ⊢
  induction h generalizing last with
  | nil => exact h'
  | cons hhead _ ih =>
    rcases h' with - | ⟨hhead', hrest⟩
    exact .cons (hhead.trans hhead') (ih hrest)

theorem coe_fullTurn : ((Scalar.fullTurn : ℝ) : Real.Angle) = 0 := by
  rw [Exact.fullTurn_eq, Real.Angle.coe_two_pi]

theorem coe_normalize (angle : ℝ) : ((normalize angle : ℝ) : Real.Angle) = angle := by
  have hremainder : ((Scalar.remainder angle Scalar.fullTurn : ℝ) : Real.Angle) = angle := by
    show ((angle - Scalar.fullTurn * (Exact.truncate (angle / Scalar.fullTurn) : ℤ) : ℝ) :
      Real.Angle) = angle
    rw [Real.Angle.coe_sub, mul_comm Scalar.fullTurn, Real.Angle.intCast_mul_eq_zsmul,
      coe_fullTurn, zsmul_zero, sub_zero]
  unfold normalize
  dsimp only
  split_ifs
  · rw [Real.Angle.coe_add, hremainder, coe_fullTurn, add_zero]
  · rw [Real.Angle.coe_sub, hremainder, coe_fullTurn, sub_zero]
  · exact hremainder

theorem normalize_mem_Ioc (angle : ℝ) : normalize angle ∈ Set.Ioc (-Real.pi) Real.pi := by
  have hremainder : |(Scalar.remainder angle Scalar.fullTurn : ℝ)| < 2 * Real.pi := by
    have hturn : (Scalar.remainder angle Scalar.fullTurn : ℝ) = Scalar.fullTurn *
        (angle / Scalar.fullTurn - Exact.truncate (angle / Scalar.fullTurn)) := by
      have hne : (Scalar.fullTurn : ℝ) ≠ 0 := by rw [Exact.fullTurn_eq]; positivity
      rw [mul_sub, mul_div_cancel₀ angle hne]
      rfl
    rw [hturn, abs_mul, Exact.fullTurn_eq, abs_of_pos Real.two_pi_pos]
    exact mul_lt_of_lt_one_right Real.two_pi_pos (Exact.abs_sub_truncate_lt _)
  obtain ⟨hlow, hhigh⟩ := abs_lt.mp hremainder
  have hpi : (Scalar.pi : ℝ) = Real.pi := rfl
  unfold normalize
  dsimp only
  rw [hpi]
  split_ifs with hbelow habove
  · rw [Exact.fullTurn_eq] at hlow hbelow ⊢
    constructor <;> linarith [Real.pi_pos]
  · rw [Exact.fullTurn_eq] at hhigh habove ⊢
    constructor <;> linarith [Real.pi_pos]
  · exact ⟨not_le.mp hbelow, not_lt.mp habove⟩

theorem coe_nearest (value previous : ℝ) :
    ((nearest value previous : ℝ) : Real.Angle) = value := by
  unfold nearest
  rw [if_pos (Exact.isFinite_eq_true previous)]
  dsimp only
  rw [mul_assoc]
  show ((value + (Exact.roundHalfAway ((previous - value) / Scalar.fullTurn) : ℤ) *
    (Scalar.fullTurn : ℝ) : ℝ) : Real.Angle) = value
  rw [Real.Angle.coe_add, Real.Angle.intCast_mul_eq_zsmul, coe_fullTurn, zsmul_zero, add_zero]

theorem turned_follow (values previous : List ℝ) : Turned (follow values previous) values := by
  fun_induction follow values previous with
  | case1 => exact List.Forall₂.nil
  | case2 value values ih => exact List.Forall₂.cons (coe_normalize value) ih
  | case3 value values previous rest ih =>
    exact List.Forall₂.cons ((coe_nearest _ previous).trans (coe_normalize value)) ih

end Angle

theorem settle_eq_normalize (value : ℝ) : settle value = Angle.normalize value :=
  if_pos (Exact.isFinite_eq_true value)

theorem turned_settle (values : List ℝ) : Angle.Turned (values.map settle) values := by
  refine List.forall₂_map_left_iff.mpr (List.forall₂_same.mpr fun value _ ↦ ?_)
  rw [settle_eq_normalize, Angle.coe_normalize]

theorem settled_mem_Ioc {values : List ℝ} {joint : ℝ} (h : joint ∈ values.map settle) :
    joint ∈ Set.Ioc (-Real.pi) Real.pi := by
  obtain ⟨value, -, rfl⟩ := List.mem_map.mp h
  rw [settle_eq_normalize]
  exact Angle.normalize_mem_Ioc value

/-- A whole turn changes at most the sign of the quaternion. -/
theorem Rotation.same_aboutZ {angle other : ℝ} (h : (angle : Real.Angle) = other) :
    (aboutZ angle).Same (aboutZ other) := by
  obtain ⟨turns, hturns⟩ := Real.Angle.angle_eq_iff_two_pi_dvd_sub.mp h
  have hhalf : angle / 2 = other / 2 + turns * Real.pi := by linear_combination hturns / 2
  rw [aboutZ_eq, aboutZ_eq, hhalf, Real.cos_add_int_mul_pi, Real.sin_add_int_mul_pi]
  rcases Int.even_or_odd turns with heven | hodd
  · left
    rw [heven.neg_one_zpow, one_mul, one_mul]
  · right
    rw [hodd.neg_one_zpow, neg_one_mul, neg_one_mul, neg_def, neg_zero]

/-! ### Chains -/

theorem Link.rigid_transform (link : Link ℝ) (angle : ℝ) : (link.transform angle).Rigid :=
  Rotation.Proper.mul (Rotation.proper_aboutZ angle) (Rotation.proper_aboutX link.twist)

/-- The pose of a link whose axis stands at zero. -/
theorem Link.transform_zero (link : Link ℝ) :
    link.transform 0 = ⟨⟨link.length, 0, link.offset⟩, .aboutX link.twist⟩ := by
  rw [transform, Rotation.aboutZ_zero, Pose.mul_def, one_mul, Rotation.one_apply, Vec3.add_def,
    zero_add, zero_add, add_zero]

theorem Link.same_transform (link : Link ℝ) {angle other : ℝ} (h : (angle : Real.Angle) = other) :
    (link.transform angle).Same (link.transform other) :=
  Pose.Same.mul ⟨rfl, Rotation.same_aboutZ h⟩ (Pose.Same.refl _)

theorem rigid_chainFrom {links : List (Link ℝ)} {angles : List ℝ} :
    ∀ {start : Pose ℝ}, start.Rigid → ∀ pose ∈ chainFrom start links angles, pose.Rigid := by
  induction links generalizing angles with
  | nil => intro start _ pose hpose; simp [chainFrom] at hpose
  | cons link links ih =>
    intro start hstart pose hpose
    rcases angles with - | ⟨angle, angles⟩
    · simp [chainFrom] at hpose
    · have hnext : (start * link.transform angle).Rigid := hstart.mul (link.rigid_transform angle)
      rcases List.mem_cons.mp hpose with rfl | hrest
      · exact hnext
      · exact ih hnext pose hrest

theorem rigid_chainEnd (links : List (Link ℝ)) (angles : List ℝ) :
    (chainEnd links angles).Rigid := by
  rw [chainEnd, List.getLastD_eq_getLast?]
  cases hlast : (chain links angles).getLast? with
  | none => exact Pose.rigid_one
  | some last => exact rigid_chainFrom Pose.rigid_one last (List.mem_of_getLast? hlast)

theorem getLast?_chain_cons (link : Link ℝ) (links : List (Link ℝ)) (angle : ℝ)
    (angles : List ℝ) : (chain (link :: links) (angle :: angles)).getLast? =
      some (chainEnd (link :: links) (angle :: angles)) := by
  rw [chainEnd, chain, chainFrom, List.getLast?_cons, List.getLastD_cons,
    List.getLastD_eq_getLast?]

theorem same_chainFrom (links : List (Link ℝ)) {angles others : List ℝ}
    (h : Angle.Turned angles others) : ∀ {start start' : Pose ℝ}, start.Same start' →
      List.Forall₂ Pose.Same (chainFrom start links angles) (chainFrom start' links others) := by
  induction links generalizing angles others with
  | nil => intro start start' _; exact List.Forall₂.nil
  | cons link links ih =>
    intro start start' hstart
    match angles, others, h with
    | [], [], _ => exact List.Forall₂.nil
    | _ :: _, _ :: _, .cons hangle hrest =>
      have hnext := hstart.mul (link.same_transform hangle)
      exact List.Forall₂.cons hnext (ih hrest hnext)

theorem same_getLastD {planes others : List (Pose ℝ)}
    (h : List.Forall₂ Pose.Same planes others) :
    ∀ {start start' : Pose ℝ}, start.Same start' →
      (planes.getLastD start).Same (others.getLastD start') := by
  induction h with
  | nil => exact id
  | cons hhead _ ih =>
    intro start start' _
    rw [List.getLastD_cons, List.getLastD_cons]
    exact ih hhead

/-- Rows of planes that are the same motions one by one end with the same motion. -/
theorem exists_getLast?_same {planes others : List (Pose ℝ)}
    (h : List.Forall₂ Pose.Same planes others) {last : Pose ℝ}
    (hlast : others.getLast? = some last) :
    ∃ reached, planes.getLast? = some reached ∧ reached.Same last := by
  have hsame := same_getLastD h (Pose.Same.refl 1)
  rw [List.getLastD_eq_getLast?, List.getLastD_eq_getLast?, hlast, Option.getD_some] at hsame
  cases hplanes : planes.getLast? with
  | none =>
    rw [List.getLast?_eq_none_iff] at hplanes
    subst hplanes
    cases h
    cases hlast
  | some reached =>
    rw [hplanes, Option.getD_some] at hsame
    exact ⟨reached, rfl, hsame⟩

theorem same_chainEnd (links : List (Link ℝ)) {angles others : List ℝ}
    (h : Angle.Turned angles others) : (chainEnd links angles).Same (chainEnd links others) :=
  same_getLastD (same_chainFrom links h (Pose.Same.refl 1)) (Pose.Same.refl 1)

namespace Solver

/-- Every topology is a chain of links. -/
theorem exists_forward_eq_chain (solver : Solver ℝ) :
    ∃ links, ∀ joints, solver.forward joints = chain links joints := by
  rcases solver with arm | arm | arm
  · exact ⟨arm.links, fun _ ↦ rfl⟩
  · exact ⟨arm.links, fun _ ↦ rfl⟩
  · exact ⟨arm.links, fun _ ↦ rfl⟩

theorem rigid_forward (solver : Solver ℝ) (joints : List ℝ) :
    ∀ pose ∈ solver.forward joints, pose.Rigid := by
  obtain ⟨links, hforward⟩ := solver.exists_forward_eq_chain
  rw [hforward]
  exact rigid_chainFrom Pose.rigid_one

theorem same_forward (solver : Solver ℝ) {joints others : List ℝ}
    (h : Angle.Turned joints others) :
    List.Forall₂ Pose.Same (solver.forward joints) (solver.forward others) := by
  obtain ⟨links, hforward⟩ := solver.exists_forward_eq_chain
  rw [hforward, hforward]
  exact same_chainFrom links h (Pose.Same.refl 1)

end Solver

end Toolpath
