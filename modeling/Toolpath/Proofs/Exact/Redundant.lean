import Toolpath.Proofs.Exact.Nearest
import Toolpath.Proofs.Exact.Wrist

/-!
Arms with a redundant axis over exact numbers. Axis 4 sets the distance of the wrist centre from the
shoulder, axis 2 its height and axis 1 its direction, each of them for any value of axis 3
(`RedundantArm.applyPoint_of_axes`); with the wrist, a branch without faults leads the chain back to
the flange (`RedundantArm.inverse_exact_of_redundancy`). Conversely each of these axes is found from
the wrist centre once axis 3 is known (`RedundantArm.exists_turned_inverse`).
-/

set_option autoImplicit false
set_option relaxedAutoImplicit false

namespace Toolpath.RedundantArm

/-- The offsets that the solver does not read are zero, and upper arm and forearm have a length. -/
structure Standard (arm : RedundantArm ℝ) : Prop where
  upper : arm.offsets 2 ≠ 0
  forearm : arm.offsets 4 ≠ 0
  offsets : arm.offsets 1 = 0 ∧ arm.offsets 3 = 0 ∧ arm.offsets 5 = 0

variable {arm : RedundantArm ℝ}

/-- The wrist centre as seen from axis 2, whatever the offset of axis 4 is. -/
theorem shoulderPoint_eq (arm : RedundantArm ℝ) (q3 q4 : ℝ) :
    arm.shoulderPoint q3 q4 =
      ⟨arm.offsets 3 * Real.sin q3 - arm.offsets 4 * Real.sin q4 * Real.cos q3,
        -(arm.offsets 3 * Real.cos q3) - arm.offsets 4 * Real.sin q4 * Real.sin q3,
        arm.offsets 2 + arm.offsets 4 * Real.cos q4⟩ := by
  rw [shoulderPoint, Pose.applyPoint_mul (Link.rigid_transform _ _) (Link.rigid_transform _ _)]
  simp only [Link.applyPoint_transform, link, Real.cos_neg, Real.sin_neg,
    Exact.cos_quarterTurn, Exact.sin_quarterTurn]
  congr 1 <;> ring

theorem Standard.shoulderPoint_eq (harm : arm.Standard) (q3 q4 : ℝ) :
    arm.shoulderPoint q3 q4 =
      ⟨-(arm.offsets 4 * Real.sin q4 * Real.cos q3), -(arm.offsets 4 * Real.sin q4 * Real.sin q3),
        arm.offsets 2 + arm.offsets 4 * Real.cos q4⟩ := by
  rw [RedundantArm.shoulderPoint_eq, harm.offsets.2.1]
  congr 1 <;> ring

/-- The distance between shoulder and wrist centre depends on axis 4 alone. -/
theorem Standard.normSq_shoulderPoint (harm : arm.Standard) (q3 q4 : ℝ) :
    (arm.shoulderPoint q3 q4).normSq = arm.offsets 2 * arm.offsets 2 +
      arm.offsets 4 * arm.offsets 4 + 2 * (arm.offsets 2 * arm.offsets 4) * Real.cos q4 := by
  rw [harm.shoulderPoint_eq, Vec3.normSq, Vec3.dot]
  linear_combination arm.offsets 4 ^ 2 * Real.sin q4 ^ 2 * Real.sin_sq_add_cos_sq q3 +
    arm.offsets 4 ^ 2 * Real.sin_sq_add_cos_sq q4

/-- The point `p` lifted by axis 2. -/
theorem lift_eq (q2 : ℝ) (p : Vec3 ℝ) :
    (Rotation.aboutZ q2 * Rotation.aboutX Scalar.quarterTurn).apply p =
      ⟨p.x * Real.cos q2 + p.z * Real.sin q2, p.x * Real.sin q2 - p.z * Real.cos q2, p.y⟩ := by
  rw [(Rotation.proper_aboutZ q2).apply_mul (Rotation.proper_aboutX _), Rotation.apply_aboutX,
    Rotation.apply_aboutZ, Exact.cos_quarterTurn, Exact.sin_quarterTurn]
  congr 1 <;> ring

/-- The wrist centre behind the first four axes. -/
theorem Standard.applyPoint_chainEnd (harm : arm.Standard) (q1 q2 q3 q4 : ℝ) :
    (chainEnd (arm.links.take 4) [q1, q2, q3, q4]).applyPoint ⟨0, 0, arm.offsets 4⟩ =
      ((arm.link 0 (-Scalar.quarterTurn)).transform q1).applyPoint
        ((Rotation.aboutZ q2 * Rotation.aboutX Scalar.quarterTurn).apply
          (arm.shoulderPoint q3 q4)) := by
  have hend : chainEnd (arm.links.take 4) [q1, q2, q3, q4] =
      1 * (arm.link 0 (-Scalar.quarterTurn)).transform q1 *
        (arm.link 1 Scalar.quarterTurn).transform q2 *
        (arm.link 2 Scalar.quarterTurn).transform q3 *
        (arm.link 3 (-Scalar.quarterTurn)).transform q4 := by
    simp only [chainEnd, chain, links, chainFrom, List.take_succ_cons, List.take_zero,
      List.getLastD_cons, List.getLastD_nil]
  have hlift : ∀ p, ((arm.link 1 Scalar.quarterTurn).transform q2).applyPoint p =
      (Rotation.aboutZ q2 * Rotation.aboutX Scalar.quarterTurn).apply p := by
    intro p
    rw [lift_eq, Link.applyPoint_transform]
    simp only [link, harm.offsets.1, Exact.cos_quarterTurn, Exact.sin_quarterTurn]
    congr 1 <;> ring
  have hrigid := fun (place : Fin 7) (twist q : ℝ) ↦ Link.rigid_transform (arm.link place twist) q
  rw [hend, Pose.one_mul, Pose.mul_assoc ((hrigid _ _ _).mul (hrigid _ _ _)) (hrigid _ _ _),
    Pose.applyPoint_mul ((hrigid _ _ _).mul (hrigid _ _ _)) ((hrigid _ _ _).mul (hrigid _ _ _)),
    Pose.applyPoint_mul (hrigid _ _ _) (hrigid _ _ _), hlift]
  rfl

/-- What axis 1 does to a point that is lifted already. -/
theorem applyPoint_link_zero (arm : RedundantArm ℝ) (q1 : ℝ) (v : Vec3 ℝ) :
    ((arm.link 0 (-Scalar.quarterTurn)).transform q1).applyPoint v =
      ⟨v.x * Real.cos q1 - v.z * Real.sin q1, v.x * Real.sin q1 + v.z * Real.cos q1, -v.y⟩ +
        ⟨0, 0, arm.offsets 0⟩ := by
  rw [Link.applyPoint_transform, Vec3.add_def]
  simp only [link, Real.cos_neg, Real.sin_neg, Exact.cos_quarterTurn, Exact.sin_quarterTurn]
  congr 1 <;> ring

/-! ### The first four axes -/

section Axes

variable {centre p : Vec3 ℝ}

/-- Axis 4 for a wrist centre in reach. -/
theorem axisFour_eq {x : ℝ} (h : |x| ≤ 1)
    (hx : (centre.normSq - arm.offsets 2 * arm.offsets 2 - arm.offsets 4 * arm.offsets 4) /
      (2 * arm.offsets 2 * arm.offsets 4) = x) (elbow : Bool) :
    arm.axisFour centre elbow = (Exact.mirrored elbow (Real.arccos x), []) := by
  unfold axisFour
  dsimp only
  rw [Exact.two_eq, hx, Exact.abs_eq, if_neg h.not_gt, Exact.clamp_eq_self h]
  rfl

theorem reach_of_axisFour {elbow : Bool} (h : (arm.axisFour centre elbow).2 = []) :
    |(centre.normSq - arm.offsets 2 * arm.offsets 2 - arm.offsets 4 * arm.offsets 4) /
      (2 * arm.offsets 2 * arm.offsets 4)| ≤ 1 := by
  unfold axisFour at h
  dsimp only at h
  rw [Exact.two_eq, Exact.abs_eq] at h
  simpa only [ite_eq_right_iff, reduceCtorEq, imp_false, not_lt] using h

theorem cos_axisFour (harm : arm.Standard) {elbow : Bool}
    (h : (arm.axisFour centre elbow).2 = []) :
    2 * (arm.offsets 2 * arm.offsets 4) * Real.cos (arm.axisFour centre elbow).1 =
      centre.normSq - arm.offsets 2 * arm.offsets 2 - arm.offsets 4 * arm.offsets 4 := by
  have hne : 2 * arm.offsets 2 * arm.offsets 4 ≠ 0 :=
    mul_ne_zero (mul_ne_zero two_ne_zero harm.upper) harm.forearm
  have hreach := reach_of_axisFour h
  rw [axisFour_eq hreach rfl, Exact.cos_mirrored_arccos elbow hreach, ← mul_assoc,
    mul_div_cancel₀ _ hne]

/-- Axis 2 for a point that is not on it. -/
theorem axisTwo_eq (hradius : singularityTolerance < Scalar.hypot p.x p.z)
    (hreach : |centre.z / Scalar.hypot p.x p.z| ≤ 1) (shoulder : Bool) :
    axisTwo centre p shoulder = (Exact.mirrored shoulder
      (Real.arccos (centre.z / Scalar.hypot p.x p.z)) - Scalar.arctan2 p.x p.z, []) := by
  unfold axisTwo
  dsimp only
  rw [if_pos hradius, Exact.abs_eq, if_neg hreach.not_gt, Exact.clamp_eq_self hreach]
  cases shoulder
  · exact congrArg (·, []) (neg_add_eq_sub _ _)
  · exact congrArg (·, []) (by
      show -Scalar.arctan2 p.x p.z - Real.arccos _ = -Real.arccos _ - Scalar.arctan2 p.x p.z
      ring)

theorem reach_of_axisTwo {shoulder : Bool} (h : (axisTwo centre p shoulder).2 = []) :
    singularityTolerance < Scalar.hypot p.x p.z ∧ |centre.z / Scalar.hypot p.x p.z| ≤ 1 := by
  unfold axisTwo at h
  dsimp only at h
  simp only [Exact.abs_eq, ite_eq_right_iff, reduceCtorEq, imp_false, not_lt] at h
  by_cases hradius : singularityTolerance < Scalar.hypot p.x p.z
  · rw [if_pos hradius] at h
    exact ⟨hradius, h⟩
  · rw [if_neg hradius, Exact.two_eq] at h
    norm_num at h

/-- The angle of a lifted point against the vertical. -/
noncomputable def liftAngle (arm : RedundantArm ℝ) (q2 q3 q4 : ℝ) : ℝ :=
  q2 + Scalar.arctan2 (arm.shoulderPoint q3 q4).x (arm.shoulderPoint q3 q4).z

/-- The height of the lifted point, by the angle of axis 2 against the direction of the point. -/
theorem height_eq (p : Vec3 ℝ) (q2 : ℝ) :
    p.z * Real.cos q2 - p.x * Real.sin q2 =
      Scalar.hypot p.x p.z * Real.cos (q2 + Scalar.arctan2 p.x p.z) := by
  have hcos := Exact.hypot_mul_cos_arctan2 p.z p.x
  have hsin := Exact.hypot_mul_sin_arctan2 p.z p.x
  rw [Exact.hypot_comm] at hcos hsin
  rw [Real.cos_add]
  linear_combination -Real.cos q2 * hcos + Real.sin q2 * hsin

/-- Axis 2 lifts the point to the height of the wrist centre. -/
theorem height_axisTwo {shoulder : Bool} (h : (axisTwo centre p shoulder).2 = []) :
    p.z * Real.cos (axisTwo centre p shoulder).1 -
      p.x * Real.sin (axisTwo centre p shoulder).1 = centre.z := by
  obtain ⟨hradius, hreach⟩ := reach_of_axisTwo h
  have hpos : Scalar.hypot p.x p.z ≠ 0 := (singularityTolerance_pos.trans hradius).ne'
  rw [height_eq, axisTwo_eq hradius hreach, sub_add_cancel, Exact.cos_mirrored_arccos _ hreach,
    mul_div_cancel₀ _ hpos]

/-- The first four axes put the wrist centre in place, whatever the value of axis 3 is. -/
theorem applyPoint_of_axes (harm : arm.Standard) {shoulder elbow : Bool} {q1 q2 q3 q4 : ℝ}
    (hfour : (arm.axisFour centre elbow).2 = []) (h4 : (arm.axisFour centre elbow).1 = q4)
    (htwo : (axisTwo centre (arm.shoulderPoint q3 q4) shoulder).2 = [])
    (h2 : (axisTwo centre (arm.shoulderPoint q3 q4) shoulder).1 = q2)
    (h1 : (axisOne centre (arm.shoulderPoint q3 q4) q2).1 = q1) :
    (chainEnd (arm.links.take 4) [q1, q2, q3, q4]).applyPoint ⟨0, 0, arm.offsets 4⟩ =
      centre + ⟨0, 0, arm.offsets 0⟩ := by
  have hdistance : (arm.shoulderPoint q3 q4).normSq = centre.normSq := by
    rw [harm.normSq_shoulderPoint, ← h4, cos_axisFour harm hfour]
    ring
  have hheight := height_axisTwo htwo
  rw [h2] at hheight
  set p := arm.shoulderPoint q3 q4
  set v := (Rotation.aboutZ q2 * Rotation.aboutX Scalar.quarterTurn).apply p with hv
  have hlift : v = _ := lift_eq q2 p
  have hvy : v.y = -centre.z := by
    rw [hlift]
    linear_combination -hheight
  have hflat : v.x ^ 2 + v.z ^ 2 = centre.x ^ 2 + centre.y ^ 2 := by
    rw [Vec3.normSq, Vec3.normSq, Vec3.dot, Vec3.dot] at hdistance
    have hlength : v.x ^ 2 + v.y ^ 2 + v.z ^ 2 = p.x * p.x + p.y * p.y + p.z * p.z := by
      rw [hlift]
      linear_combination (p.x ^ 2 + p.z ^ 2) * Real.sin_sq_add_cos_sq q2
    rw [hvy] at hlength
    linear_combination hlength + hdistance
  obtain ⟨hx, hy⟩ := Exact.turn_onto hflat h1.symm
  rw [harm.applyPoint_chainEnd, applyPoint_link_zero, ← hv, hx, hy, hvy, neg_neg]

/-- Axis 4 is found from the distance of the wrist centre. -/
theorem turned_axisFour (harm : arm.Standard) {q3 q4 : ℝ} {elbow : Bool}
    (hdistance : centre.normSq = (arm.shoulderPoint q3 q4).normSq)
    (helbow : 0 ≤ Exact.mirrored elbow (Real.sin q4)) :
    (arm.axisFour centre elbow).2 = [] ∧
      ((arm.axisFour centre elbow).1 : Real.Angle) = q4 := by
  have hne : 2 * arm.offsets 2 * arm.offsets 4 ≠ 0 :=
    mul_ne_zero (mul_ne_zero two_ne_zero harm.upper) harm.forearm
  have hcos : (centre.normSq - arm.offsets 2 * arm.offsets 2 - arm.offsets 4 * arm.offsets 4) /
      (2 * arm.offsets 2 * arm.offsets 4) = Real.cos q4 := by
    rw [div_eq_iff hne, hdistance, harm.normSq_shoulderPoint]
    ring
  rw [axisFour_eq (Real.abs_cos_le_one q4) hcos]
  exact ⟨rfl, Exact.coe_mirrored_arccos helbow⟩

/-- Axis 2 is found from the height of the lifted point, unless the point lies on the axis. -/
theorem turned_axisTwo {q2 : ℝ} {shoulder : Bool}
    (hheight : centre.z = p.z * Real.cos q2 - p.x * Real.sin q2)
    (haxis : singularityTolerance < Scalar.hypot p.x p.z)
    (hshoulder : 0 ≤ Exact.mirrored shoulder (Real.sin (q2 + Scalar.arctan2 p.x p.z))) :
    (axisTwo centre p shoulder).2 = [] ∧
      ((axisTwo centre p shoulder).1 : Real.Angle) = q2 := by
  have hradius : Scalar.hypot p.x p.z ≠ 0 := (singularityTolerance_pos.trans haxis).ne'
  have hcos : centre.z / Scalar.hypot p.x p.z = Real.cos (q2 + Scalar.arctan2 p.x p.z) := by
    rw [div_eq_iff hradius, mul_comm, ← height_eq, hheight]
  rw [axisTwo_eq haxis (hcos ▸ Real.abs_cos_le_one _), hcos]
  refine ⟨rfl, ?_⟩
  rw [Real.Angle.coe_sub, Exact.coe_mirrored_arccos hshoulder, ← Real.Angle.coe_sub,
    add_sub_cancel_right]

/-- Axis 1 is found from the direction of the wrist centre, unless it lies on the base axis. -/
theorem turned_axisOne {q1 q2 q2' : ℝ} (h2 : (q2' : Real.Angle) = q2)
    (hbase : baseTolerance ≤ Scalar.hypot centre.x centre.y)
    (hcentre : let v := (Rotation.aboutZ q2 * Rotation.aboutX Scalar.quarterTurn).apply p
      centre = ⟨v.x * Real.cos q1 - v.z * Real.sin q1, v.x * Real.sin q1 + v.z * Real.cos q1,
        -v.y⟩) :
    (axisOne centre p q2').2 = [] ∧ ((axisOne centre p q2').1 : Real.Angle) = q1 := by
  have hlift : (Rotation.aboutZ q2' * Rotation.aboutX Scalar.quarterTurn).apply p =
      (Rotation.aboutZ q2 * Rotation.aboutX Scalar.quarterTurn).apply p :=
    ((Rotation.same_aboutZ h2).mul (.refl _)).apply p
  unfold axisOne
  dsimp only at hcentre ⊢
  rw [hlift]
  set v := (Rotation.aboutZ q2 * Rotation.aboutX Scalar.quarterTurn).apply p
  have hflat : Scalar.hypot v.x v.z = Scalar.hypot centre.x centre.y := by
    rw [hcentre, Exact.hypot_turn]
  have hpos : (0 : ℝ) < baseTolerance := by norm_num [baseTolerance]
  exact ⟨if_neg hbase.not_gt, Exact.coe_turn_onto (hflat ▸ hpos.trans_le hbase)
    (congrArg Vec3.x hcentre) (congrArg Vec3.y hcentre)⟩

/-- Each of the axes 4, 2 and 1 is found from the wrist centre, unless it lies on the base axis or
on axis 2. The flags tell the side of the vertical that axis 2 lifts the point to, and of a straight
elbow. -/
theorem turned_axes (harm : arm.Standard) {q1 q2 q3 q4 : ℝ} {shoulder elbow : Bool}
    (hcentre : centre + ⟨0, 0, arm.offsets 0⟩ =
      (chainEnd (arm.links.take 4) [q1, q2, q3, q4]).applyPoint ⟨0, 0, arm.offsets 4⟩)
    (hbase : baseTolerance ≤ Scalar.hypot centre.x centre.y)
    (haxis : singularityTolerance <
      Scalar.hypot (arm.shoulderPoint q3 q4).x (arm.shoulderPoint q3 q4).z)
    (hshoulder : 0 ≤ Exact.mirrored shoulder (Real.sin (arm.liftAngle q2 q3 q4)))
    (helbow : 0 ≤ Exact.mirrored elbow (Real.sin q4)) :
    let four := arm.axisFour centre elbow
    let p := arm.shoulderPoint q3 four.1
    let two := axisTwo centre p shoulder
    let one := axisOne centre p two.1
    (four.2 = [] ∧ two.2 = [] ∧ one.2 = []) ∧
      Angle.Turned [one.1, two.1, q3, four.1] [q1, q2, q3, q4] := by
  rw [harm.applyPoint_chainEnd, applyPoint_link_zero, add_left_inj] at hcentre
  have hlift := lift_eq q2 (arm.shoulderPoint q3 q4)
  have hdistance : centre.normSq = (arm.shoulderPoint q3 q4).normSq := by
    rw [hcentre, Vec3.normSq, Vec3.normSq, Vec3.dot, Vec3.dot, hlift]
    set p := arm.shoulderPoint q3 q4
    linear_combination ((p.x * Real.cos q2 + p.z * Real.sin q2) ^ 2 + p.y ^ 2) *
      Real.sin_sq_add_cos_sq q1 + (p.x ^ 2 + p.z ^ 2) * Real.sin_sq_add_cos_sq q2
  have hheight : centre.z = (arm.shoulderPoint q3 q4).z * Real.cos q2 -
      (arm.shoulderPoint q3 q4).x * Real.sin q2 := by
    rw [hcentre, hlift]
    ring
  obtain ⟨hfour, h4⟩ := turned_axisFour harm hdistance helbow
  have hpoint : arm.shoulderPoint q3 (arm.axisFour centre elbow).1 = arm.shoulderPoint q3 q4 := by
    rw [harm.shoulderPoint_eq, harm.shoulderPoint_eq, Exact.cos_eq_of_coe_eq h4,
      Exact.sin_eq_of_coe_eq h4]
  obtain ⟨htwo, h2⟩ := turned_axisTwo hheight haxis hshoulder
  obtain ⟨hone, h1⟩ := turned_axisOne h2 hbase hcentre
  dsimp only
  rw [hpoint]
  exact ⟨⟨hfour, htwo, hone⟩, .cons h1 (.cons h2 (.cons rfl (.cons h4 .nil)))⟩

end Axes

/-! ### Flanges -/

section Flange

variable {flange : Pose ℝ}

theorem inverse_eq (arm : RedundantArm ℝ) (flange : Pose ℝ) (configuration : Configuration)
    (redundancy : ℝ) : arm.inverse flange configuration redundancy =
      let centre := arm.wristCentre flange
      let four := arm.axisFour centre (configuration.includes .elbow)
      let p := arm.shoulderPoint redundancy four.1
      let two := axisTwo centre p (configuration.includes .shoulder)
      let one := axisOne centre p two.1
      let position := [one.1, two.1, redundancy, four.1]
      let wrist := wristAngles (arm.wristRotation flange position)
        (!configuration.includes .wrist)
      { joints := (position ++ wrist.1).map settle
        faults := four.2 ++ two.2 ++ one.2 ++ wrist.2 } := rfl

theorem Standard.getLast?_forward (harm : arm.Standard) (q1 q2 q3 q4 q5 q6 q7 : ℝ) :
    (arm.forward [q1, q2, q3, q4, q5, q6, q7]).getLast? =
      some (chainEnd (arm.links.take 4) [q1, q2, q3, q4] *
        (⟨0, arm.offsets 4, -Scalar.quarterTurn⟩ : Link ℝ).transform q5 *
        (⟨0, 0, Scalar.quarterTurn⟩ : Link ℝ).transform q6 *
        (⟨0, arm.offsets 6, 0⟩ : Link ℝ).transform q7) := by
  simp only [forward, chain, chainEnd, links, link, chainFrom, List.take_succ_cons, List.take_zero,
    List.getLast?_cons_cons, List.getLast?_singleton, List.getLastD_cons, List.getLastD_nil,
    harm.offsets.2.2]

theorem wristCentre_add (arm : RedundantArm ℝ) (flange : Pose ℝ) :
    arm.wristCentre flange + ⟨0, 0, arm.offsets 0⟩ =
      flange.position - flange.zAxis.scale (arm.offsets 6) :=
  sub_add_cancel _ _

/-- The last entry of the rotation that a branch leaves to the wrist: the cosine of its middle
axis. -/
noncomputable def wristCosine (arm : RedundantArm ℝ) (flange : Pose ℝ)
    (configuration : Configuration) (redundancy : ℝ) : ℝ :=
  let centre := arm.wristCentre flange
  let q4 := (arm.axisFour centre (configuration.includes .elbow)).1
  let p := arm.shoulderPoint redundancy q4
  let q2 := (axisTwo centre p (configuration.includes .shoulder)).1
  let q1 := (axisOne centre p q2).1
  (arm.wristRotation flange [q1, q2, redundancy, q4]).z.z

/-- Where the flange and the redundant axis tell the position of the others: the wrist centre is off
the base axis and off axis 2, and the wrist is neither straight nor folded back. -/
structure Regular (arm : RedundantArm ℝ) (flange : Pose ℝ) (q1 q6 : ℝ) : Prop where
  base : baseTolerance ≤ (1 : Pose ℝ).axisDistance
    (flange.position - flange.zAxis.scale (arm.offsets 6))
  axisTwo : singularityTolerance < ((arm.link 0 (-Scalar.quarterTurn)).transform q1).axisDistance
    (flange.position - flange.zAxis.scale (arm.offsets 6))
  straight : singularityTolerance ≤ |Real.cos q6 - 1|
  folded : Real.cos q6 ≠ -1

/-- The wrist centre behind the axes of a position. -/
theorem Standard.wristCentre_forward (harm : arm.Standard) {q1 q2 q3 q4 q5 q6 q7 : ℝ}
    (hflange : (arm.forward [q1, q2, q3, q4, q5, q6, q7]).getLast? = some flange) :
    flange.position - flange.zAxis.scale (arm.offsets 6) =
      (chainEnd (arm.links.take 4) [q1, q2, q3, q4]).applyPoint ⟨0, 0, arm.offsets 4⟩ := by
  rw [harm.getLast?_forward, Option.some_inj, eq_comm] at hflange
  exact (wrist_of_flange (rigid_chainEnd _ _) hflange).1

/-- Regular positions by their axes. -/
theorem Standard.regular_iff (harm : arm.Standard) {q1 q2 q3 q4 q5 q6 q7 : ℝ}
    (hflange : (arm.forward [q1, q2, q3, q4, q5, q6, q7]).getLast? = some flange) :
    let p := arm.shoulderPoint q3 q4
    arm.Regular flange q1 q6 ↔
      baseTolerance ≤ Scalar.hypot (p.x * Real.cos q2 + p.z * Real.sin q2) p.y ∧
      singularityTolerance < Scalar.hypot p.x p.z ∧
      singularityTolerance ≤ |Real.cos q6 - 1| ∧ Real.cos q6 ≠ -1 := by
  intro p
  have hcentre := harm.wristCentre_forward hflange
  have hbase : (1 : Pose ℝ).axisDistance
      (flange.position - flange.zAxis.scale (arm.offsets 6)) =
        Scalar.hypot (p.x * Real.cos q2 + p.z * Real.sin q2) p.y := by
    rw [Pose.axisDistance_one, hcentre, harm.applyPoint_chainEnd, applyPoint_link_zero, lift_eq,
      Vec3.add_def, add_zero, add_zero, Exact.hypot_turn]
  have haxis : ((arm.link 0 (-Scalar.quarterTurn)).transform q1).axisDistance
      (flange.position - flange.zAxis.scale (arm.offsets 6)) = Scalar.hypot p.x p.z := by
    rw [hcentre, harm.applyPoint_chainEnd, (Link.rigid_transform _ _).axisDistance_applyPoint,
      lift_eq, Exact.hypot_mirror]
  rw [← hbase, ← haxis]
  exact ⟨fun ⟨h1, h2, h3, h4⟩ ↦ ⟨h1, h2, h3, h4⟩, fun ⟨h1, h2, h3, h4⟩ ↦ ⟨h1, h2, h3, h4⟩⟩

/-- The flags of a configuration tell the sides that a position is on: of the vertical, of a
straight elbow and of a straight wrist. -/
structure Flagged (arm : RedundantArm ℝ) (configuration : Configuration) (q2 q3 q4 q6 : ℝ) :
    Prop where
  shoulder : 0 ≤ Exact.mirrored (configuration.includes .shoulder)
    (Real.sin (arm.liftAngle q2 q3 q4))
  elbow : 0 ≤ Exact.mirrored (configuration.includes .elbow) (Real.sin q4)
  wrist : 0 < wristSign (!configuration.includes .wrist) * Real.sin q6

theorem exists_flagged (arm : RedundantArm ℝ) (q2 q3 q4 : ℝ) {q6 : ℝ}
    (hbent : Real.sin q6 ≠ 0) :
    ∃ configuration ∈ Solver.branches, arm.Flagged configuration q2 q3 q4 q6 := by
  obtain ⟨shoulder, hshoulder⟩ :=
    Exact.exists_mirrored_nonneg (Real.sin (arm.liftAngle q2 q3 q4))
  obtain ⟨elbow, helbow⟩ := Exact.exists_mirrored_nonneg (Real.sin q4)
  obtain ⟨positive, hwrist⟩ := exists_wristSign_pos hbent
  obtain ⟨configuration, hbranch, rfl, rfl, hpositive⟩ :=
    Solver.exists_mem_branches shoulder elbow (!positive)
  exact ⟨configuration, hbranch, hshoulder, helbow, by rwa [hpositive, Bool.not_not]⟩

/-- The branch whose flags tell the sides of a regular position finds the position again from its
redundant axis. -/
theorem turned_inverse (harm : arm.Standard) {q1 q2 q3 q4 q5 q6 q7 : ℝ}
    (hflange : (arm.forward [q1, q2, q3, q4, q5, q6, q7]).getLast? = some flange)
    (hregular : arm.Regular flange q1 q6) {configuration : Configuration}
    (hflags : arm.Flagged configuration q2 q3 q4 q6) :
    arm.wristCosine flange configuration q3 = Real.cos q6 ∧
      (arm.inverse flange configuration q3).faults = [] ∧
      Angle.Turned (arm.inverse flange configuration q3).joints [q1, q2, q3, q4, q5, q6, q7] := by
  have hcentre := harm.wristCentre_forward hflange
  have hbase := hregular.base
  obtain ⟨-, haxis, hstraight, -⟩ := (harm.regular_iff hflange).mp hregular
  rw [← wristCentre_add] at hcentre hbase
  rw [Pose.axisDistance_one, Vec3.add_def, add_zero, add_zero] at hbase
  obtain ⟨⟨hfour, htwo, hone⟩, hposition⟩ :=
    turned_axes harm hcentre hbase haxis hflags.shoulder hflags.elbow
  obtain ⟨hwrist, hangles⟩ := turned_wristAngles q5 q7 hstraight hflags.wrist
  rw [harm.getLast?_forward, Option.some_inj, eq_comm] at hflange
  have hturn := (wrist_of_flange (rigid_chainEnd _ _) hflange).2
  have hrotation := (same_chainEnd (arm.links.take 4) hposition).2.basis
  refine ⟨by rw [wristCosine, wristRotation, hrotation, hturn, basis_wristTurn], ?_⟩
  rw [inverse_eq]
  dsimp only
  rw [wristRotation, hrotation, hturn, hfour, htwo, hone, hwrist]
  exact ⟨rfl, (turned_settle _).trans (List.rel_append hposition hangles)⟩

/-- One of the branches finds a regular position again from its redundant axis. -/
theorem exists_turned_inverse (harm : arm.Standard) {q1 q2 q3 q4 q5 q6 q7 : ℝ}
    (hflange : (arm.forward [q1, q2, q3, q4, q5, q6, q7]).getLast? = some flange)
    (hregular : arm.Regular flange q1 q6) :
    ∃ configuration ∈ Solver.branches, (arm.inverse flange configuration q3).faults = [] ∧
      Angle.Turned (arm.inverse flange configuration q3).joints [q1, q2, q3, q4, q5, q6, q7] := by
  obtain ⟨configuration, hbranch, hflags⟩ :=
    arm.exists_flagged q2 q3 q4 (sin_ne_zero_of_bent hregular.straight hregular.folded)
  exact ⟨configuration, hbranch, (turned_inverse harm hflange hregular hflags).2⟩

/-- For any value of the redundant axis, a branch without faults leads the chain back to the flange.
The redundant axis has the value that was given, and all axis values are reduced. Where the wrist
would be folded back onto itself nothing is said. -/
theorem inverse_exact_of_redundancy (harm : arm.Standard) (hflange : flange.Rigid)
    (configuration : Configuration) (redundancy : ℝ)
    (hfolded : arm.wristCosine flange configuration redundancy ≠ -1)
    (hfaults : (arm.inverse flange configuration redundancy).faults = []) :
    (∃ last, (arm.forward (arm.inverse flange configuration redundancy).joints).getLast? =
        some last ∧ last.Same flange) ∧
      (∃ joint : ℝ, (arm.inverse flange configuration redundancy).joints[2]? = some joint ∧
        (joint : Real.Angle) = redundancy) ∧
      ∀ joint ∈ (arm.inverse flange configuration redundancy).joints,
        joint ∈ Set.Ioc (-Real.pi) Real.pi := by
  rw [inverse_eq] at hfaults ⊢
  rw [wristCosine] at hfolded
  dsimp only at hfaults hfolded ⊢
  simp only [List.append_eq_nil_iff] at hfaults
  obtain ⟨⟨⟨hfour, htwo⟩, -⟩, hwrist⟩ := hfaults
  refine ⟨?_, ⟨settle redundancy, rfl, ?_⟩, fun joint hjoint ↦ settled_mem_Ioc hjoint⟩
  · have hcentre := applyPoint_of_axes harm hfour rfl htwo rfl rfl
    rw [wristCentre_add] at hcentre
    rw [wristRotation, Rotation.basis_relativeTo] at hfolded hwrist ⊢
    obtain ⟨q5, q6, q7, hangles, hturn⟩ := wristTurn_of_wristAngles
      (Rotation.Proper.mul (Rotation.Proper.inverse (rigid_chainEnd _ _)) hflange) hfolded hwrist
    rw [hangles]
    have hsame := same_of_wrist (rigid_chainEnd _ _) hflange hcentre
      (hturn.trans (Rotation.basis_relativeTo _ _).symm)
    obtain ⟨last, hlast, hreached⟩ := exists_getLast?_same
      (Solver.same_forward (.redundant arm) (turned_settle _)) (harm.getLast?_forward _ _ _ _ _ _ _)
    exact ⟨last, hlast, hreached.trans hsame⟩
  · rw [settle_eq_normalize, Angle.coe_normalize]

/-- Upper arm, forearm and hand of length one. -/
noncomputable def plainRedundant : RedundantArm ℝ :=
  ⟨![0, 0, 1, 0, 1, 0, 1]⟩

/-- Upper arm level, forearm and hand at right angles, and the elbow turned about the upper arm. -/
noncomputable def rightAnglesWith (redundancy : ℝ) : List ℝ :=
  [0, Scalar.quarterTurn, redundancy, Scalar.quarterTurn, 0, Scalar.quarterTurn, 0]

/-- The pose that they lead to. -/
noncomputable def angularWith (redundancy : ℝ) : Pose ℝ :=
  chainEnd plainRedundant.links (rightAnglesWith redundancy)

theorem standard_plainRedundant : plainRedundant.Standard :=
  ⟨one_ne_zero, one_ne_zero, rfl, rfl, rfl⟩

section Turned

variable (redundancy : ℝ)

theorem forward_angularWith :
    (plainRedundant.forward (rightAnglesWith redundancy)).getLast? =
      some (angularWith redundancy) :=
  getLast?_chain_cons _ _ _ _

theorem shoulderPoint_angularWith : plainRedundant.shoulderPoint redundancy Scalar.quarterTurn =
    ⟨-Real.cos redundancy, -Real.sin redundancy, 1⟩ := by
  rw [standard_plainRedundant.shoulderPoint_eq]
  simp [plainRedundant, Exact.cos_quarterTurn, Exact.sin_quarterTurn]

theorem regular_angularWith :
    plainRedundant.Regular (angularWith redundancy) 0 Scalar.quarterTurn := by
  have hbase : baseTolerance ≤ |(1 : ℝ)| := by norm_num [baseTolerance]
  have haxis : singularityTolerance < |(1 : ℝ)| := by norm_num [singularityTolerance]
  refine (standard_plainRedundant.regular_iff (forward_angularWith redundancy)).mpr ?_
  rw [shoulderPoint_angularWith, Exact.cos_quarterTurn, Exact.sin_quarterTurn, mul_zero, zero_add,
    one_mul]
  refine ⟨hbase.trans (Exact.abs_le_hypot _ _), ?_, by norm_num [singularityTolerance],
    by norm_num⟩
  rw [Exact.hypot_comm]
  exact haxis.trans_le (Exact.abs_le_hypot _ _)

theorem flagged_angularWith : plainRedundant.Flagged .empty Scalar.quarterTurn redundancy
    Scalar.quarterTurn Scalar.quarterTurn where
  shoulder := by
    have hcos := Exact.hypot_mul_cos_arctan2 1 (-Real.cos redundancy)
    rw [liftAngle, shoulderPoint_angularWith, add_comm, Exact.quarterTurn_eq,
      Real.sin_add_pi_div_two]
    exact nonneg_of_mul_nonneg_right (hcos.symm ▸ zero_le_one)
      (Exact.hypot_pos_iff.mpr (.inl one_ne_zero))
  elbow := by
    rw [Exact.sin_quarterTurn]
    exact zero_le_one
  wrist := by
    rw [Exact.sin_quarterTurn, mul_one]
    exact one_pos

end Turned

/-- The elbow is turned by a right angle. -/
theorem inverse_exact_angular_redundant :
    plainRedundant.Standard ∧ (angularWith Scalar.quarterTurn).Rigid ∧
      plainRedundant.wristCosine (angularWith Scalar.quarterTurn) .empty Scalar.quarterTurn ≠ -1 ∧
      (plainRedundant.inverse (angularWith Scalar.quarterTurn) .empty Scalar.quarterTurn).faults =
        [] ∧ (Scalar.quarterTurn : ℝ) ≠ 0 ∧
      (∃ last, (plainRedundant.forward (plainRedundant.inverse (angularWith Scalar.quarterTurn)
        .empty Scalar.quarterTurn).joints).getLast? = some last ∧
          last.Same (angularWith Scalar.quarterTurn)) ∧
      (∃ joint : ℝ, (plainRedundant.inverse (angularWith Scalar.quarterTurn) .empty
        Scalar.quarterTurn).joints[2]? = some joint ∧
          (joint : Real.Angle) = (Scalar.quarterTurn : ℝ)) ∧
      ∀ joint ∈ (plainRedundant.inverse (angularWith Scalar.quarterTurn) .empty
        Scalar.quarterTurn).joints, joint ∈ Set.Ioc (-Real.pi) Real.pi := by
  have hrigid : (angularWith Scalar.quarterTurn).Rigid := rigid_chainEnd _ _
  obtain ⟨hcosine, hfaults, -⟩ := turned_inverse standard_plainRedundant (forward_angularWith _)
    (regular_angularWith Scalar.quarterTurn) (flagged_angularWith Scalar.quarterTurn)
  have hfolded : plainRedundant.wristCosine (angularWith Scalar.quarterTurn) .empty
      Scalar.quarterTurn ≠ -1 := by
    rw [hcosine, Exact.cos_quarterTurn]
    norm_num
  have hturned : (Scalar.quarterTurn : ℝ) ≠ 0 := by
    rw [Exact.quarterTurn_eq]
    exact (div_pos Real.pi_pos two_pos).ne'
  exact ⟨standard_plainRedundant, hrigid, hfolded, hfaults, hturned,
    inverse_exact_of_redundancy standard_plainRedundant hrigid .empty Scalar.quarterTurn hfolded
      hfaults⟩

end Flange

/-! ### A position with the elbow up -/

/-- Upper arm level, forearm and hand at right angles. -/
noncomputable def rightAngles : List ℝ :=
  [0, Scalar.quarterTurn, 0, Scalar.quarterTurn, 0, Scalar.quarterTurn, 0]

/-- The pose that the right angles lead to. -/
noncomputable def angular : Pose ℝ :=
  chainEnd plainRedundant.links rightAngles

theorem forward_angular : (plainRedundant.forward rightAngles).getLast? = some angular :=
  forward_angularWith 0

theorem regular_angular : plainRedundant.Regular angular 0 Scalar.quarterTurn :=
  regular_angularWith 0

theorem flagged_angular :
    plainRedundant.Flagged .empty Scalar.quarterTurn 0 Scalar.quarterTurn Scalar.quarterTurn :=
  flagged_angularWith 0

end Toolpath.RedundantArm
