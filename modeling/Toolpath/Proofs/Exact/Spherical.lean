import Toolpath.Proofs.Exact.Wrist
import Toolpath.Proofs.Exact.Nearest
import Toolpath.Proofs.Exact.Reach

/-!
Arms with a spherical wrist over exact numbers. Axis 2, elbow and wrist centre are the corners of an
`ElbowTriangle`, with signed angles and an upper arm of either sign; `triangleAngle?` finds its
angles up to a common sign (`ElbowTriangle.of_triangleAngle?`, `ElbowTriangle.triangleAngle?_eq`). A
branch whose triangle closes puts the wrist centre in place (`SphericalWrist.reaches_of_position`),
so a branch without faults leads the chain back to the flange
(`SphericalWrist.inverse_exact_of_unfolded`). Conversely the first three axes of a position are
found from its wrist centre (`SphericalWrist.exists_turned_position`).
-/

set_option autoImplicit false
set_option relaxedAutoImplicit false

namespace Toolpath

/-! ### Angles of a triangle -/

section Angles

variable {a b c angle : ℝ}

/-- An angle that is found is the one of the law of cosines, between zero and a half turn. -/
theorem of_triangleAngle? (h : triangleAngle? a b c = some angle) :
    a * b ≠ 0 ∧ 2 * (a * b) * Real.cos angle = a * a + b * b - c * c ∧ 0 ≤ Real.sin angle := by
  unfold triangleAngle? at h
  dsimp only at h
  split_ifs at h with hcloses
  obtain ⟨hdivisor, -, habs⟩ := hcloses
  obtain rfl := Option.some.inj h
  rw [Exact.two_eq] at hdivisor habs ⊢
  rw [Exact.abs_eq] at habs
  have hne : 2 * a * b ≠ 0 := hdivisor.elim ne_of_lt ne_of_gt
  refine ⟨fun hzero ↦ hne (by rw [mul_assoc, hzero, mul_zero]), ?_,
    Real.sin_nonneg_of_nonneg_of_le_pi (Real.arccos_nonneg _) (Real.arccos_le_pi _)⟩
  rw [Exact.arccos_eq, Real.cos_arccos (abs_le.mp habs).1 (abs_le.mp habs).2, ← mul_assoc,
    mul_div_cancel₀ _ hne]

theorem triangleAngle?_eq (hne : a * b ≠ 0)
    (h : 2 * (a * b) * Real.cos angle = a * a + b * b - c * c) :
    triangleAngle? a b c = some (Real.arccos (Real.cos angle)) := by
  have hdivisor : 2 * a * b ≠ 0 := by rw [mul_assoc]; exact mul_ne_zero two_ne_zero hne
  have hcos : (a * a + b * b - c * c) / (2 * a * b) = Real.cos angle := by
    rw [← h, ← mul_assoc, mul_div_cancel_left₀ _ hdivisor]
  unfold triangleAngle?
  dsimp only
  rw [Exact.two_eq, hcos, Exact.abs_eq]
  exact if_pos ⟨lt_or_gt_of_ne hdivisor, Exact.isFinite_eq_true _, Real.abs_cos_le_one angle⟩

end Angles

/-! ### The triangle of axis 2, elbow and wrist centre -/

/-- The triangle with the sides `upper`, `forearm` and `span`, by its projections along and across
the upper arm. `beta` is the angle at axis 2 and `gamma` the angle at the elbow, both counted in the
same sense. -/
structure ElbowTriangle (upper forearm span beta gamma : ℝ) : Prop where
  along : span * Real.cos beta + forearm * Real.cos gamma = upper
  across : span * Real.sin beta = forearm * Real.sin gamma

namespace ElbowTriangle

variable {upper forearm span beta gamma : ℝ}

/-- The mirror image of a triangle in its upper arm. -/
theorem mirror (h : ElbowTriangle upper forearm span beta gamma) (flag : Bool) :
    ElbowTriangle upper forearm span (Exact.mirrored flag beta) (Exact.mirrored flag gamma) := by
  cases flag
  · exact h
  · constructor
    · show span * Real.cos (-beta) + forearm * Real.cos (-gamma) = upper
      rw [Real.cos_neg, Real.cos_neg, h.along]
    · show span * Real.sin (-beta) = forearm * Real.sin (-gamma)
      rw [Real.sin_neg, Real.sin_neg, mul_neg, mul_neg, h.across]

/-- With the upper arm at the angle `beta` above the span, the forearm ends where the span does. -/
theorem span_eq (h : ElbowTriangle upper forearm span beta gamma) (elevation : ℝ) :
    upper * Real.cos (beta + elevation) - forearm * Real.cos (beta + elevation + gamma) =
        span * Real.cos elevation ∧
      upper * Real.sin (beta + elevation) - forearm * Real.sin (beta + elevation + gamma) =
        span * Real.sin elevation := by
  have hback : elevation = beta + elevation - beta := by ring
  have hcos : Real.cos elevation = Real.cos (beta + elevation) * Real.cos beta +
      Real.sin (beta + elevation) * Real.sin beta := by rw [← Real.cos_sub, ← hback]
  have hsin : Real.sin elevation = Real.sin (beta + elevation) * Real.cos beta -
      Real.cos (beta + elevation) * Real.sin beta := by rw [← Real.sin_sub, ← hback]
  rw [Real.cos_add (beta + elevation) gamma, Real.sin_add (beta + elevation) gamma, hcos, hsin]
  constructor
  · linear_combination -Real.cos (beta + elevation) * h.along -
      Real.sin (beta + elevation) * h.across
  · linear_combination -Real.sin (beta + elevation) * h.along +
      Real.cos (beta + elevation) * h.across

theorem of_span_eq {angle elevation : ℝ}
    (hcos : upper * Real.cos angle - forearm * Real.cos (angle + gamma) =
      span * Real.cos elevation)
    (hsin : upper * Real.sin angle - forearm * Real.sin (angle + gamma) =
      span * Real.sin elevation) :
    ElbowTriangle upper forearm span (angle - elevation) gamma := by
  have hunit := Real.sin_sq_add_cos_sq angle
  rw [Real.cos_add] at hcos
  rw [Real.sin_add] at hsin
  constructor
  · rw [Real.cos_sub]
    linear_combination -Real.cos angle * hcos - Real.sin angle * hsin +
      (upper - forearm * Real.cos gamma) * hunit
  · rw [Real.sin_sub]
    linear_combination -Real.sin angle * hcos + Real.cos angle * hsin +
      forearm * Real.sin gamma * hunit

/-- The angles at both ends of the upper arm make a triangle. -/
theorem of_triangleAngle? (hspan : 0 ≤ span) (hforearm : 0 ≤ forearm)
    (hbeta : triangleAngle? upper span forearm = some beta)
    (hgamma : triangleAngle? upper forearm span = some gamma) :
    ElbowTriangle upper forearm span beta gamma := by
  obtain ⟨hne, hcosb, hsinb⟩ := Toolpath.of_triangleAngle? hbeta
  obtain ⟨-, hcosg, hsing⟩ := Toolpath.of_triangleAngle? hgamma
  have hupper : upper ≠ 0 := left_ne_zero_of_mul hne
  constructor
  · refine mul_left_cancel₀ (mul_ne_zero two_ne_zero hupper) ?_
    linear_combination hcosb + hcosg
  -- Both sides are the height of the triangle, whose square the law of cosines gives twice.
  · have hsquares : (span * Real.sin beta) ^ 2 = (forearm * Real.sin gamma) ^ 2 := by
      refine mul_left_cancel₀ (mul_ne_zero four_ne_zero (pow_ne_zero 2 hupper)) ?_
      linear_combination 4 * upper ^ 2 * span ^ 2 * Real.sin_sq_add_cos_sq beta -
        4 * upper ^ 2 * forearm ^ 2 * Real.sin_sq_add_cos_sq gamma -
        (2 * (upper * span) * Real.cos beta + upper * upper + span * span - forearm * forearm) *
          hcosb +
        (2 * (upper * forearm) * Real.cos gamma + upper * upper + forearm * forearm -
          span * span) * hcosg
    exact (sq_eq_sq₀ (mul_nonneg hspan hsinb) (mul_nonneg hforearm hsing)).mp hsquares

/-- The law of cosines at both ends of the upper arm. -/
theorem law_of_cosines (h : ElbowTriangle upper forearm span beta gamma) :
    2 * (upper * span) * Real.cos beta = upper * upper + span * span - forearm * forearm ∧
      2 * (upper * forearm) * Real.cos gamma =
        upper * upper + forearm * forearm - span * span := by
  have hb := Real.sin_sq_add_cos_sq beta
  have hg := Real.sin_sq_add_cos_sq gamma
  obtain ⟨halong, hacross⟩ := h
  constructor
  · linear_combination
      (upper - span * Real.cos beta + forearm * Real.cos gamma) * halong -
      (span * Real.sin beta + forearm * Real.sin gamma) * hacross + span ^ 2 * hb -
      forearm ^ 2 * hg
  · linear_combination
      (upper - forearm * Real.cos gamma + span * Real.cos beta) * halong +
      (span * Real.sin beta + forearm * Real.sin gamma) * hacross - span ^ 2 * hb +
      forearm ^ 2 * hg

/-- In a mirrored triangle both angles change their sign. -/
theorem exists_mirrored_nonneg (h : ElbowTriangle upper forearm span beta gamma)
    (hspan : 0 < span) (hforearm : 0 < forearm) : ∃ flag,
      0 ≤ Exact.mirrored flag (Real.sin beta) ∧ 0 ≤ Exact.mirrored flag (Real.sin gamma) := by
  have hacross := h.across
  rcases le_total 0 (Real.sin beta) with hsin | hsin
  · refine ⟨false, hsin, ?_⟩
    exact nonneg_of_mul_nonneg_right (hacross ▸ mul_nonneg hspan.le hsin) hforearm
  · refine ⟨true, neg_nonneg.mpr hsin, neg_nonneg.mpr ?_⟩
    exact nonpos_of_mul_nonpos_right (hacross ▸ mul_nonpos_of_nonneg_of_nonpos hspan.le hsin)
      hforearm

end ElbowTriangle

/-! ### Arms with a spherical wrist -/

namespace SphericalWrist

/-- The lengths and offsets that the solver does not read are zero, axis 2 is not behind the base,
and upper arm and forearm have a length. -/
structure Standard (arm : SphericalWrist ℝ) : Prop where
  base : 0 ≤ arm.lengths 0
  upper : arm.lengths 1 ≠ 0
  forearm : arm.lengths 2 ≠ 0 ∨ arm.offsets 3 ≠ 0
  lengths : arm.lengths 3 = 0 ∧ arm.lengths 4 = 0 ∧ arm.lengths 5 = 0
  offsets : arm.offsets 1 = 0 ∧ arm.offsets 2 = 0 ∧ arm.offsets 4 = 0

variable {arm : SphericalWrist ℝ}

theorem Standard.forearm_pos (harm : arm.Standard) : 0 < arm.forearm :=
  Exact.hypot_pos_iff.mpr harm.forearm

theorem Standard.epsilon_lt_of_le (harm : arm.Standard) {radius : ℝ}
    (h : arm.lengths 0 + singularityTolerance ≤ radius) : Scalar.epsilon < radius := by
  have htolerance : (Scalar.epsilon : ℝ) < singularityTolerance := by
    norm_num [Scalar.epsilon, singularityTolerance]
  linarith [harm.base]

/-- The angle of the forearm against the upper arm, folded back being zero. -/
noncomputable def elbowAngle (arm : SphericalWrist ℝ) (q3 : ℝ) : ℝ :=
  q3 + Scalar.arctan2 (arm.lengths 2) (arm.offsets 3) + Scalar.quarterTurn

theorem elbowAngle_sub (arm : SphericalWrist ℝ) (gamma : ℝ) :
    arm.elbowAngle (gamma - Scalar.arctan2 (arm.lengths 2) (arm.offsets 3) - Scalar.quarterTurn) =
      gamma := by
  rw [elbowAngle]
  ring

/-- The horizontal distance of the wrist centre from axis 2, negative behind it. -/
noncomputable def reach (arm : SphericalWrist ℝ) (q2 q3 : ℝ) : ℝ :=
  arm.lengths 1 * Real.cos q2 - arm.forearm * Real.cos (q2 + arm.elbowAngle q3)

/-- The height of the wrist centre above axis 2. -/
noncomputable def rise (arm : SphericalWrist ℝ) (q2 q3 : ℝ) : ℝ :=
  arm.lengths 1 * Real.sin q2 - arm.forearm * Real.sin (q2 + arm.elbowAngle q3)

/-- The angle of the upper arm against the direction of the wrist centre. -/
noncomputable def upperAngle (arm : SphericalWrist ℝ) (q2 q3 : ℝ) : ℝ :=
  q2 - Scalar.arctan2 (arm.rise q2 q3) (arm.reach q2 q3)

/-- The first three axes make a triangle. -/
theorem elbowTriangle_axes (arm : SphericalWrist ℝ) (q2 q3 : ℝ) :
    ElbowTriangle (arm.lengths 1) arm.forearm (Scalar.hypot (arm.reach q2 q3) (arm.rise q2 q3))
      (arm.upperAngle q2 q3) (arm.elbowAngle q3) :=
  .of_span_eq (Exact.hypot_mul_cos_arctan2 _ _).symm (Exact.hypot_mul_sin_arctan2 _ _).symm

theorem forearm_mul_sin (arm : SphericalWrist ℝ) :
    arm.forearm * Real.sin (Scalar.arctan2 (arm.lengths 2) (arm.offsets 3)) = arm.lengths 2 := by
  rw [forearm, Exact.hypot_comm, Exact.hypot_mul_sin_arctan2]

theorem forearm_mul_cos (arm : SphericalWrist ℝ) :
    arm.forearm * Real.cos (Scalar.arctan2 (arm.lengths 2) (arm.offsets 3)) = arm.offsets 3 := by
  rw [forearm, Exact.hypot_comm, Exact.hypot_mul_cos_arctan2]

theorem Standard.chainEnd_take (harm : arm.Standard) (q1 q2 q3 : ℝ) :
    chainEnd (arm.links.take 3) [q1, q2, q3] =
      (⟨arm.lengths 0, arm.offsets 0, Scalar.quarterTurn⟩ : Link ℝ).transform q1 *
        (⟨arm.lengths 1, 0, 0⟩ : Link ℝ).transform q2 *
        (⟨arm.lengths 2, 0, Scalar.quarterTurn⟩ : Link ℝ).transform q3 := by
  obtain ⟨h1, h2, -⟩ := harm.offsets
  show 1 * (⟨arm.lengths 0, arm.offsets 0, Scalar.quarterTurn⟩ : Link ℝ).transform q1 *
    (⟨arm.lengths 1, arm.offsets 1, 0⟩ : Link ℝ).transform q2 *
    (⟨arm.lengths 2, arm.offsets 2, Scalar.quarterTurn⟩ : Link ℝ).transform q3 = _
  rw [Pose.one_mul, h1, h2]

/-- The wrist centre behind the first three axes, in the plane of the arm. -/
theorem Standard.applyPoint_chainEnd (harm : arm.Standard) (q1 q2 q3 : ℝ) :
    (chainEnd (arm.links.take 3) [q1, q2, q3]).applyPoint ⟨0, 0, arm.offsets 3⟩ =
      ((⟨arm.lengths 0, arm.offsets 0, Scalar.quarterTurn⟩ : Link ℝ).transform q1).applyPoint
        ⟨arm.reach q2 q3, arm.rise q2 q3, 0⟩ := by
  have hsin := arm.forearm_mul_sin
  have hcos := arm.forearm_mul_cos
  have hangle : q2 + arm.elbowAngle q3 =
      q2 + q3 + Scalar.arctan2 (arm.lengths 2) (arm.offsets 3) + Real.pi / 2 := by
    rw [elbowAngle, Exact.quarterTurn_eq]
    ring
  have hreach : arm.reach q2 q3 = (arm.lengths 1 + arm.lengths 2 * Real.cos q3 +
      arm.offsets 3 * Real.sin q3) * Real.cos q2 -
      (arm.lengths 2 * Real.sin q3 - arm.offsets 3 * Real.cos q3) * Real.sin q2 := by
    rw [reach, hangle, Real.cos_add_pi_div_two, Real.sin_add (q2 + q3), Real.sin_add q2,
      Real.cos_add q2]
    linear_combination (Real.cos q2 * Real.cos q3 - Real.sin q2 * Real.sin q3) * hsin +
      (Real.sin q2 * Real.cos q3 + Real.cos q2 * Real.sin q3) * hcos
  have hrise : arm.rise q2 q3 = (arm.lengths 1 + arm.lengths 2 * Real.cos q3 +
      arm.offsets 3 * Real.sin q3) * Real.sin q2 +
      (arm.lengths 2 * Real.sin q3 - arm.offsets 3 * Real.cos q3) * Real.cos q2 := by
    rw [rise, hangle, Real.sin_add_pi_div_two, Real.cos_add (q2 + q3), Real.sin_add q2,
      Real.cos_add q2]
    linear_combination (Real.sin q2 * Real.cos q3 + Real.cos q2 * Real.sin q3) * hsin -
      (Real.cos q2 * Real.cos q3 - Real.sin q2 * Real.sin q3) * hcos
  rw [harm.chainEnd_take, Pose.applyPoint_mul ((Link.rigid_transform _ _).mul
    (Link.rigid_transform _ _)) (Link.rigid_transform _ _), Pose.applyPoint_mul
    (Link.rigid_transform _ _) (Link.rigid_transform _ _)]
  congr 1
  simp only [Link.applyPoint_transform, hreach, hrise, Exact.cos_quarterTurn,
    Exact.sin_quarterTurn, Real.cos_zero, Real.sin_zero]
  congr 1 <;> ring

theorem Standard.wristCentre_chain (harm : arm.Standard) (q1 q2 q3 : ℝ) :
    (chainEnd (arm.links.take 3) [q1, q2, q3]).applyPoint ⟨0, 0, arm.offsets 3⟩ =
      ⟨(arm.lengths 0 + arm.reach q2 q3) * Real.cos q1,
        (arm.lengths 0 + arm.reach q2 q3) * Real.sin q1, arm.offsets 0 + arm.rise q2 q3⟩ := by
  rw [harm.applyPoint_chainEnd, Link.applyPoint_transform]
  simp only [Exact.cos_quarterTurn, Exact.sin_quarterTurn]
  congr 1 <;> ring

/-! ### The first three axes -/

section Position

variable {c : Vec3 ℝ}

/-- The first three axes of a branch, with the arm turned so that the wrist centre lies in front of
the base at the signed distance `mirrored shoulder radius`. -/
theorem position_eq (arm : SphericalWrist ℝ) (hfar : Scalar.epsilon < Scalar.hypot c.x c.y)
    (shoulder elbow : Bool) :
    arm.position c shoulder elbow =
      let ahead := Exact.mirrored shoulder (Scalar.hypot c.x c.y) - arm.lengths 0
      let triangle := arm.elbowTriangle (Scalar.hypot ahead (c.z - arm.offsets 0))
      ([if shoulder then Scalar.arctan2 c.y c.x + Real.pi else Scalar.arctan2 c.y c.x,
        Exact.mirrored (elbow != shoulder) triangle.1.1 +
          Scalar.arctan2 (c.z - arm.offsets 0) ahead,
        Exact.mirrored (elbow != shoulder) triangle.1.2 -
          Scalar.arctan2 (arm.lengths 2) (arm.offsets 3) - Scalar.quarterTurn], triangle.2) := by
  have hradius : Scalar.hypot c.x c.y ≠ 0 := by
    have hpos : (0 : ℝ) < Scalar.epsilon := by norm_num [Scalar.epsilon]
    exact (hpos.trans hfar).ne'
  have hsquare := Exact.hypot_mul_self c.x c.y
  have hspan : ∀ flag, ((if flag then ⟨-c.x, -c.y, c.z⟩ else c : Vec3 ℝ) -
      arm.axisTwo c (Scalar.hypot c.x c.y)).norm =
      Scalar.hypot (Exact.mirrored flag (Scalar.hypot c.x c.y) - arm.lengths 0)
        (c.z - arm.offsets 0) := by
    intro flag
    rw [axisTwo, if_pos hfar]
    refine (congrArg Real.sqrt ?_)
    cases flag
    · simp only [Bool.false_eq_true, if_false, Exact.mirrored, Vec3.normSq, Vec3.dot, Vec3.sub_def]
      field_simp
      linear_combination -(Scalar.hypot c.x c.y - arm.lengths 0) ^ 2 * hsquare
    · simp only [if_true, Exact.mirrored, Vec3.normSq, Vec3.dot, Vec3.sub_def]
      field_simp
      linear_combination -(-Scalar.hypot c.x c.y - arm.lengths 0) ^ 2 * hsquare
  have hahead : ∀ flag : Bool, (if flag then -(Scalar.hypot c.x c.y + arm.lengths 0)
      else Scalar.hypot c.x c.y - arm.lengths 0) =
      Exact.mirrored flag (Scalar.hypot c.x c.y) - arm.lengths 0 := by
    rintro (- | -)
    · rfl
    · exact neg_add' _ _
  have hheight : (arm.axisTwo c (Scalar.hypot c.x c.y)).z = arm.offsets 0 := by
    rw [axisTwo, if_pos hfar]
  unfold position
  dsimp only
  rw [hspan, hahead, hheight]
  rfl

/-- The arm is turned towards its wrist centre, or away from it by a half turn. -/
theorem mirrored_direction (c : Vec3 ℝ) (shoulder : Bool) :
    let base := if shoulder then Scalar.arctan2 c.y c.x + Real.pi else Scalar.arctan2 c.y c.x
    Exact.mirrored shoulder (Scalar.hypot c.x c.y) * Real.cos base = c.x ∧
      Exact.mirrored shoulder (Scalar.hypot c.x c.y) * Real.sin base = c.y := by
  have hcos := Exact.hypot_mul_cos_arctan2 c.x c.y
  have hsin := Exact.hypot_mul_sin_arctan2 c.x c.y
  cases shoulder
  · exact ⟨hcos, hsin⟩
  · simp only [if_true, Exact.mirrored, Real.cos_add_pi, Real.sin_add_pi, neg_mul_neg]
    exact ⟨hcos, hsin⟩

theorem elbowTriangle_closes (harm : arm.Standard) {span : ℝ} (hspan : 0 ≤ span)
    (h : (arm.elbowTriangle span).2 = true) :
    ElbowTriangle (arm.lengths 1) arm.forearm span (arm.elbowTriangle span).1.1
      (arm.elbowTriangle span).1.2 := by
  unfold elbowTriangle at h ⊢
  dsimp only at h ⊢
  split at h
  · next beta gamma hbeta hgamma =>
    exact .of_triangleAngle? hspan harm.forearm_pos.le hbeta hgamma
  · exact absurd h Bool.false_ne_true

theorem ElbowTriangle.elbowTriangle_eq (harm : arm.Standard) {span beta gamma : ℝ}
    (hspan : 0 < span) (h : ElbowTriangle (arm.lengths 1) arm.forearm span beta gamma) :
    arm.elbowTriangle span =
      ((Real.arccos (Real.cos beta), Real.arccos (Real.cos gamma)), true) := by
  have hbeta := triangleAngle?_eq (mul_ne_zero harm.upper hspan.ne') h.law_of_cosines.1
  have hgamma := triangleAngle?_eq (mul_ne_zero harm.upper harm.forearm_pos.ne')
    h.law_of_cosines.2
  unfold elbowTriangle
  dsimp only
  rw [hbeta, hgamma]

/-- A branch whose triangle closes puts the wrist centre in place. -/
theorem reaches_of_position (harm : arm.Standard)
    (hfar : Scalar.epsilon < Scalar.hypot c.x c.y) {shoulder elbow : Bool}
    (hcloses : (arm.position c shoulder elbow).2 = true) :
    ∃ q1 q2 q3, (arm.position c shoulder elbow).1 = [q1, q2, q3] ∧
      (chainEnd (arm.links.take 3) [q1, q2, q3]).applyPoint ⟨0, 0, arm.offsets 3⟩ = c := by
  rw [arm.position_eq hfar] at hcloses ⊢
  dsimp only at hcloses ⊢
  set ahead := Exact.mirrored shoulder (Scalar.hypot c.x c.y) - arm.lengths 0 with hahead
  obtain ⟨hx, hy⟩ := mirrored_direction c shoulder
  have htriangle := (elbowTriangle_closes harm (Exact.hypot_nonneg ahead (c.z - arm.offsets 0))
    hcloses).mirror (elbow != shoulder)
  obtain ⟨hreach, hrise⟩ := htriangle.span_eq (Scalar.arctan2 (c.z - arm.offsets 0) ahead)
  rw [Exact.hypot_mul_cos_arctan2] at hreach
  rw [Exact.hypot_mul_sin_arctan2] at hrise
  have hbase : arm.lengths 0 + ahead = Exact.mirrored shoulder (Scalar.hypot c.x c.y) :=
    add_sub_cancel _ _
  refine ⟨_, _, _, rfl, ?_⟩
  rw [harm.wristCentre_chain, reach, rise, elbowAngle_sub, hreach, hrise, hbase, hx, hy,
    add_sub_cancel]

/-- The first three axes of a position are found from its wrist centre, unless it lies on the base
axis or on axis 2. The shoulder flag tells the side of the base axis, the elbow flag the sense of
the triangle. -/
theorem turned_position (harm : arm.Standard) {q1 q2 q3 : ℝ} {shoulder elbow : Bool}
    (hc : c = ⟨(arm.lengths 0 + arm.reach q2 q3) * Real.cos q1,
      (arm.lengths 0 + arm.reach q2 q3) * Real.sin q1, arm.offsets 0 + arm.rise q2 q3⟩)
    (hfar : Scalar.epsilon < Scalar.hypot c.x c.y)
    (hspan : 0 < Scalar.hypot (arm.reach q2 q3) (arm.rise q2 q3))
    (hshoulder : 0 ≤ Exact.mirrored shoulder (arm.lengths 0 + arm.reach q2 q3))
    (hupper : 0 ≤ Exact.mirrored (elbow != shoulder) (Real.sin (arm.upperAngle q2 q3)))
    (helbow : 0 ≤ Exact.mirrored (elbow != shoulder) (Real.sin (arm.elbowAngle q3))) :
    (arm.position c shoulder elbow).2 = true ∧
      Angle.Turned (arm.position c shoulder elbow).1 [q1, q2, q3] := by
  have hradius : Scalar.hypot c.x c.y = |arm.lengths 0 + arm.reach q2 q3| := by
    rw [hc, Exact.hypot_mul_direction]
  have hfacing : Exact.mirrored shoulder (Scalar.hypot c.x c.y) =
      arm.lengths 0 + arm.reach q2 q3 := by rw [hradius, Exact.mirrored_abs hshoulder]
  have hne : arm.lengths 0 + arm.reach q2 q3 ≠ 0 := by
    intro hzero
    rw [hradius, hzero, abs_zero] at hfar
    norm_num [Scalar.epsilon] at hfar
  obtain ⟨hx, hy⟩ := mirrored_direction c shoulder
  have hahead : Exact.mirrored shoulder (Scalar.hypot c.x c.y) - arm.lengths 0 =
      arm.reach q2 q3 := by rw [hfacing, add_sub_cancel_left]
  have hheight : c.z - arm.offsets 0 = arm.rise q2 q3 := by rw [hc, add_sub_cancel_left]
  rw [arm.position_eq hfar]
  dsimp only
  rw [hahead, hheight, ElbowTriangle.elbowTriangle_eq harm hspan (arm.elbowTriangle_axes q2 q3)]
  refine ⟨rfl, .cons ?_ (.cons ?_ (.cons ?_ .nil))⟩
  · rw [hfacing] at hx hy
    exact Exact.coe_eq_of_direction hne (by rw [hx, hc]) (by rw [hy, hc])
  · rw [Real.Angle.coe_add, Exact.coe_mirrored_arccos hupper, ← Real.Angle.coe_add, upperAngle,
      sub_add_cancel]
  · have hback : arm.elbowAngle q3 - Scalar.arctan2 (arm.lengths 2) (arm.offsets 3) -
        Scalar.quarterTurn = q3 := by
      rw [elbowAngle]
      ring
    rw [Real.Angle.coe_sub, Real.Angle.coe_sub, Exact.coe_mirrored_arccos helbow,
      ← Real.Angle.coe_sub, ← Real.Angle.coe_sub, hback]

end Position

/-! ### Flanges -/

section Flange

variable {flange : Pose ℝ}

theorem inverse_eq (arm : SphericalWrist ℝ) (flange : Pose ℝ) (configuration : Configuration) :
    arm.inverse flange configuration =
      let c := arm.wristCentre flange
      let position := arm.position c (configuration.includes .shoulder)
        (configuration.includes .elbow)
      let wrist := wristAngles (arm.wristRotation flange position.1)
        (!configuration.includes .wrist)
      { joints := (position.1 ++ wrist.1).map settle
        faults := (if Scalar.hypot c.x c.y < arm.lengths 0 + singularityTolerance then
          [.wristCentreOverBase] else []) ++ wrist.2 ++
            (if position.2 then [] else [.outOfReach]) } := rfl

theorem Standard.getLast?_forward (harm : arm.Standard) (q1 q2 q3 q4 q5 q6 : ℝ) :
    (arm.forward [q1, q2, q3, q4, q5, q6]).getLast? =
      some (chainEnd (arm.links.take 3) [q1, q2, q3] *
        (⟨0, arm.offsets 3, -Scalar.quarterTurn⟩ : Link ℝ).transform q4 *
        (⟨0, 0, Scalar.quarterTurn⟩ : Link ℝ).transform q5 *
        (⟨0, arm.offsets 5, 0⟩ : Link ℝ).transform q6) := by
  obtain ⟨h3, h4, h5⟩ := harm.lengths
  obtain ⟨-, -, h4'⟩ := harm.offsets
  simp only [forward, chain, chainEnd, links, chainFrom, List.take_succ_cons, List.take_zero,
    List.getLast?_cons_cons, List.getLast?_singleton, List.getLastD_cons, List.getLastD_nil, h3, h4,
    h5, h4']

/-- The last entry of the rotation that a branch leaves to the wrist: the cosine of its middle
axis. -/
noncomputable def wristCosine (arm : SphericalWrist ℝ) (flange : Pose ℝ)
    (configuration : Configuration) : ℝ :=
  (arm.wristRotation flange (arm.position (arm.wristCentre flange)
    (configuration.includes .shoulder) (configuration.includes .elbow)).1).z.z

/-- Where the flange tells the position of the axes: the wrist centre is away from the base axis and
off axis 2, and the wrist is neither straight nor folded back. -/
structure Regular (arm : SphericalWrist ℝ) (flange : Pose ℝ) (q1 q5 : ℝ) : Prop where
  base : arm.lengths 0 + singularityTolerance <
    (1 : Pose ℝ).axisDistance (arm.wristCentre flange)
  axisTwo : 0 < ((⟨arm.lengths 0, arm.offsets 0, Scalar.quarterTurn⟩ : Link ℝ).transform
    q1).axisDistance (arm.wristCentre flange)
  straight : singularityTolerance ≤ |Real.cos q5 - 1|
  folded : Real.cos q5 ≠ -1

/-- The wrist centre behind the axes of a position. -/
theorem Standard.wristCentre_forward (harm : arm.Standard) {q1 q2 q3 q4 q5 q6 : ℝ}
    (hflange : (arm.forward [q1, q2, q3, q4, q5, q6]).getLast? = some flange) :
    arm.wristCentre flange =
      (chainEnd (arm.links.take 3) [q1, q2, q3]).applyPoint ⟨0, 0, arm.offsets 3⟩ := by
  rw [harm.getLast?_forward, Option.some_inj, eq_comm] at hflange
  exact (wrist_of_flange (rigid_chainEnd _ _) hflange).1

/-- Regular positions by their axes. -/
theorem Standard.regular_iff (harm : arm.Standard) {q1 q2 q3 q4 q5 q6 : ℝ}
    (hflange : (arm.forward [q1, q2, q3, q4, q5, q6]).getLast? = some flange) :
    arm.Regular flange q1 q5 ↔
      arm.lengths 0 + singularityTolerance < |arm.lengths 0 + arm.reach q2 q3| ∧
      0 < Scalar.hypot (arm.reach q2 q3) (arm.rise q2 q3) ∧
      singularityTolerance ≤ |Real.cos q5 - 1| ∧ Real.cos q5 ≠ -1 := by
  have hcentre := harm.wristCentre_forward hflange
  have hbase : (1 : Pose ℝ).axisDistance (arm.wristCentre flange) =
      |arm.lengths 0 + arm.reach q2 q3| := by
    rw [Pose.axisDistance_one, hcentre, harm.wristCentre_chain, Exact.hypot_mul_direction]
  have haxis : ((⟨arm.lengths 0, arm.offsets 0, Scalar.quarterTurn⟩ : Link ℝ).transform
      q1).axisDistance (arm.wristCentre flange) =
        Scalar.hypot (arm.reach q2 q3) (arm.rise q2 q3) := by
    rw [hcentre, harm.applyPoint_chainEnd, (Link.rigid_transform _ _).axisDistance_applyPoint]
  rw [← hbase, ← haxis]
  exact ⟨fun ⟨h1, h2, h3, h4⟩ ↦ ⟨h1, h2, h3, h4⟩, fun ⟨h1, h2, h3, h4⟩ ↦ ⟨h1, h2, h3, h4⟩⟩

/-- The flags of a configuration tell the sides that a position is on: of the base axis, of the
upper arm, and of a straight wrist. -/
structure Flagged (arm : SphericalWrist ℝ) (configuration : Configuration) (q2 q3 q5 : ℝ) :
    Prop where
  shoulder : 0 ≤ Exact.mirrored (configuration.includes .shoulder)
    (arm.lengths 0 + arm.reach q2 q3)
  upper : 0 ≤ Exact.mirrored (configuration.includes .elbow != configuration.includes .shoulder)
    (Real.sin (arm.upperAngle q2 q3))
  elbow : 0 ≤ Exact.mirrored (configuration.includes .elbow != configuration.includes .shoulder)
    (Real.sin (arm.elbowAngle q3))
  wrist : 0 < wristSign (!configuration.includes .wrist) * Real.sin q5

theorem exists_flagged (harm : arm.Standard) {q2 q3 q5 : ℝ}
    (hspan : 0 < Scalar.hypot (arm.reach q2 q3) (arm.rise q2 q3)) (hbent : Real.sin q5 ≠ 0) :
    ∃ configuration ∈ Solver.branches, arm.Flagged configuration q2 q3 q5 := by
  obtain ⟨shoulder, hshoulder⟩ := Exact.exists_mirrored_nonneg (arm.lengths 0 + arm.reach q2 q3)
  obtain ⟨flag, hupper, helbow⟩ :=
    (arm.elbowTriangle_axes q2 q3).exists_mirrored_nonneg hspan harm.forearm_pos
  obtain ⟨positive, hwrist⟩ := exists_wristSign_pos hbent
  obtain ⟨configuration, hbranch, rfl, rfl, hpositive⟩ :=
    Solver.exists_mem_branches_bne shoulder flag (!positive)
  exact ⟨configuration, hbranch, hshoulder, hupper, helbow, by rwa [hpositive, Bool.not_not]⟩

/-- The branch whose flags tell the sides of a regular position finds the position again. -/
theorem turned_inverse (harm : arm.Standard) {q1 q2 q3 q4 q5 q6 : ℝ}
    (hflange : (arm.forward [q1, q2, q3, q4, q5, q6]).getLast? = some flange)
    (hregular : arm.Regular flange q1 q5) {configuration : Configuration}
    (hflags : arm.Flagged configuration q2 q3 q5) :
    arm.wristCosine flange configuration = Real.cos q5 ∧
      (arm.inverse flange configuration).faults = [] ∧
      Angle.Turned (arm.inverse flange configuration).joints [q1, q2, q3, q4, q5, q6] := by
  have hbase := hregular.base
  rw [Pose.axisDistance_one] at hbase
  obtain ⟨-, hspan, hstraight, -⟩ := (harm.regular_iff hflange).mp hregular
  obtain ⟨hcloses, hposition⟩ := turned_position harm
    ((harm.wristCentre_forward hflange).trans (harm.wristCentre_chain q1 q2 q3))
    (harm.epsilon_lt_of_le hbase.le) hspan hflags.shoulder hflags.upper hflags.elbow
  obtain ⟨hwrist, hangles⟩ := turned_wristAngles q4 q6 hstraight hflags.wrist
  rw [harm.getLast?_forward, Option.some_inj, eq_comm] at hflange
  have hrotation : arm.wristRotation flange (arm.position (arm.wristCentre flange)
      (configuration.includes .shoulder) (configuration.includes .elbow)).1 =
        (wristTurn q4 q5 q6).basis := by
    rw [wristRotation, (same_chainEnd _ hposition).2.basis,
      (wrist_of_flange (rigid_chainEnd _ _) hflange).2]
  refine ⟨by rw [wristCosine, hrotation, basis_wristTurn], ?_⟩
  rw [inverse_eq]
  dsimp only
  rw [hrotation, hcloses, if_neg hbase.le.not_gt, hwrist]
  exact ⟨rfl, (turned_settle _).trans (List.rel_append hposition hangles)⟩

/-- One of the branches finds a regular position again. -/
theorem exists_turned_inverse (harm : arm.Standard) {q1 q2 q3 q4 q5 q6 : ℝ}
    (hflange : (arm.forward [q1, q2, q3, q4, q5, q6]).getLast? = some flange)
    (hregular : arm.Regular flange q1 q5) :
    ∃ configuration ∈ Solver.branches, (arm.inverse flange configuration).faults = [] ∧
      Angle.Turned (arm.inverse flange configuration).joints [q1, q2, q3, q4, q5, q6] := by
  obtain ⟨-, hspan, hstraight, hfolded⟩ := (harm.regular_iff hflange).mp hregular
  obtain ⟨configuration, hbranch, hflags⟩ :=
    exists_flagged harm hspan (sin_ne_zero_of_bent hstraight hfolded)
  exact ⟨configuration, hbranch, (turned_inverse harm hflange hregular hflags).2⟩

/-- A branch without faults leads the chain back to the flange, and its axis values are reduced.
Where the wrist would be folded back onto itself nothing is said. -/
theorem inverse_exact_of_unfolded (harm : arm.Standard) (hflange : flange.Rigid)
    (configuration : Configuration) (hfolded : arm.wristCosine flange configuration ≠ -1)
    (hfaults : (arm.inverse flange configuration).faults = []) :
    (∃ last, (arm.forward (arm.inverse flange configuration).joints).getLast? = some last ∧
      last.Same flange) ∧
      ∀ joint ∈ (arm.inverse flange configuration).joints,
        joint ∈ Set.Ioc (-Real.pi) Real.pi := by
  rw [inverse_eq] at hfaults ⊢
  rw [wristCosine] at hfolded
  dsimp only at hfaults ⊢
  refine ⟨?_, fun joint hjoint ↦ settled_mem_Ioc hjoint⟩
  simp only [List.append_eq_nil_iff, ite_eq_right_iff, ite_eq_left_iff, reduceCtorEq, imp_false,
    not_lt, not_not] at hfaults
  obtain ⟨⟨hfar, hwrist⟩, hcloses⟩ := hfaults
  obtain ⟨q1, q2, q3, hposition, hcentre⟩ :=
    reaches_of_position harm (harm.epsilon_lt_of_le hfar) hcloses
  rw [hposition] at hfolded hwrist ⊢
  rw [wristRotation, Rotation.basis_relativeTo] at hfolded hwrist ⊢
  obtain ⟨q4, q5, q6, hangles, hturn⟩ := wristTurn_of_wristAngles
    (Rotation.Proper.mul (Rotation.Proper.inverse (rigid_chainEnd _ _)) hflange) hfolded hwrist
  rw [hangles]
  have hsame := same_of_wrist (rigid_chainEnd _ _) hflange hcentre
    (hturn.trans (Rotation.basis_relativeTo _ _).symm)
  obtain ⟨last, hlast, hreached⟩ := exists_getLast?_same
    (Solver.same_forward (.sphericalWrist arm) (turned_settle [q1, q2, q3, q4, q5, q6]))
    (harm.getLast?_forward q1 q2 q3 q4 q5 q6)
  exact ⟨last, hlast, hreached.trans hsame⟩

/-- Upper arm upright, forearm level, the hand at a right angle to it. -/
noncomputable def rightAngles : List ℝ :=
  [0, Scalar.quarterTurn, -Scalar.quarterTurn, 0, Scalar.quarterTurn, 0]

/-- The pose that the right angles lead to. -/
noncomputable def angular : Pose ℝ :=
  chainEnd plainWrist.links rightAngles

theorem forward_angular : (plainWrist.forward rightAngles).getLast? = some angular :=
  getLast?_chain_cons _ _ _ _

theorem standard_plainWrist : plainWrist.Standard :=
  ⟨zero_le_one, one_ne_zero, .inl one_ne_zero, ⟨rfl, rfl, rfl⟩, ⟨rfl, rfl, rfl⟩⟩

theorem elbowAngle_angular :
    plainWrist.elbowAngle (-Scalar.quarterTurn) = Scalar.quarterTurn := by
  have hforearm : Scalar.arctan2 (plainWrist.lengths 2) (plainWrist.offsets 3) =
      Scalar.quarterTurn := Exact.arctan2_one_zero.trans Exact.quarterTurn_eq.symm
  rw [elbowAngle, hforearm, neg_add_cancel, zero_add]

theorem reach_angular : plainWrist.reach Scalar.quarterTurn (-Scalar.quarterTurn) = 1 ∧
    plainWrist.rise Scalar.quarterTurn (-Scalar.quarterTurn) = 1 := by
  have hforearm : plainWrist.forearm = 1 :=
    Exact.hypot_eq_of_mul_self zero_le_one (by simp [plainWrist])
  have hupper : plainWrist.lengths 1 = 1 := rfl
  rw [reach, rise, elbowAngle_angular, hforearm, hupper, Real.cos_add, Real.sin_add,
    Exact.cos_quarterTurn, Exact.sin_quarterTurn]
  norm_num

theorem regular_angular : plainWrist.Regular angular 0 Scalar.quarterTurn := by
  have hbase : plainWrist.lengths 0 = 1 := rfl
  rw [standard_plainWrist.regular_iff forward_angular, reach_angular.1, reach_angular.2, hbase,
    Exact.cos_quarterTurn]
  exact ⟨by norm_num [singularityTolerance], Exact.hypot_pos_iff.mpr (.inl one_ne_zero),
    by norm_num [singularityTolerance], by norm_num⟩

theorem flagged_angular :
    plainWrist.Flagged .empty Scalar.quarterTurn (-Scalar.quarterTurn) Scalar.quarterTurn where
  shoulder := by
    have hbase : plainWrist.lengths 0 = 1 := rfl
    rw [reach_angular.1, hbase]
    show (0 : ℝ) ≤ 1 + 1
    norm_num
  upper := by
    have hcos := Exact.hypot_mul_cos_arctan2 1 1
    rw [upperAngle, reach_angular.1, reach_angular.2, Exact.quarterTurn_eq,
      Real.sin_pi_div_two_sub]
    exact nonneg_of_mul_nonneg_right (hcos.symm ▸ zero_le_one)
      (Exact.hypot_pos_iff.mpr (.inl one_ne_zero))
  elbow := by
    rw [elbowAngle_angular, Exact.sin_quarterTurn]
    exact zero_le_one
  wrist := by
    rw [Exact.sin_quarterTurn, mul_one]
    exact one_pos

theorem inverse_exact_angular :
    plainWrist.Standard ∧ angular.Rigid ∧ plainWrist.wristCosine angular .empty ≠ -1 ∧
      (plainWrist.inverse angular .empty).faults = [] ∧
      (∃ last, (plainWrist.forward (plainWrist.inverse angular .empty).joints).getLast? =
        some last ∧ last.Same angular) ∧
      ∀ joint ∈ (plainWrist.inverse angular .empty).joints,
        joint ∈ Set.Ioc (-Real.pi) Real.pi := by
  have hrigid : angular.Rigid := rigid_chainEnd _ _
  obtain ⟨hcosine, hfaults, -⟩ :=
    turned_inverse standard_plainWrist forward_angular regular_angular flagged_angular
  have hfolded : plainWrist.wristCosine angular .empty ≠ -1 := by
    rw [hcosine, Exact.cos_quarterTurn]
    norm_num
  exact ⟨standard_plainWrist, hrigid, hfolded, hfaults,
    inverse_exact_of_unfolded standard_plainWrist hrigid .empty hfolded hfaults⟩

end Flange

end SphericalWrist

end Toolpath
