import Toolpath.Proofs.Exact.Rigid
import Toolpath.Geometry.Interpolation
import Toolpath.Proofs.Planes

/-!
Interpolation over exact numbers. The moment after some of the equal parts of a motion is at their
share of it (`Moment.share_ofParts`); between two positions in range every axis stays in range
(`outOfRange_interpolateAll`). A motion starts where it leads from, for axis values
(`Moment.IsStart.interpolateAll`) as for poses (`Moment.IsStart.interpolatePose`), and its last
moment is its end (`Moment.interpolateAll_ofParts_self`,
`Moment.same_interpolatePose_ofParts_self`).
-/

set_option autoImplicit false
set_option relaxedAutoImplicit false

namespace Toolpath

namespace Moment

theorem isInstant_ofParts (part whole : Nat) :
    (ofParts part whole : Moment ℝ).isInstant = false := by
  have hlong : ¬ Scalar.abs ((1 : ℝ) - 0) < Scalar.epsilon := by
    rw [Exact.abs_eq]
    norm_num [Scalar.epsilon]
  exact decide_eq_false hlong

theorem share_ofParts (part whole : Nat) :
    (ofParts part whole : Moment ℝ).share = (part : ℝ) / whole := by
  have hspan : ((ofParts part whole : Moment ℝ).t - 0) / (1 - 0) = (part : ℝ) / whole := by
    rw [sub_zero, sub_zero, div_one]
    rfl
  rw [share, isInstant_ofParts]
  exact hspan

theorem share_ofParts_self {whole : Nat} (hwhole : whole ≠ 0) :
    (ofParts whole whole : Moment ℝ).share = 1 := by
  rw [share_ofParts, div_self (Nat.cast_ne_zero.mpr hwhole)]

theorem interpolate_ofParts (part whole : Nat) (a b : ℝ) :
    (ofParts part whole : Moment ℝ).interpolate a b = a + (b - a) * ((part : ℝ) / whole) := by
  rw [← share_ofParts, share, interpolate, isInstant_ofParts]
  rfl

/-- The last moment of a motion has the axis values of its end. -/
theorem interpolateAll_ofParts_self {whole : Nat} (hwhole : whole ≠ 0) (start stop : List ℝ) :
    (ofParts whole whole).interpolateAll start stop = stop := by
  have hend : ∀ a b : ℝ, (ofParts whole whole).interpolate a b = b := by
    intro a b
    rw [interpolate_ofParts, div_self (Nat.cast_ne_zero.mpr hwhole), mul_one, add_sub_cancel]
  fun_induction interpolateAll (ofParts whole whole) start stop with
  | case1 => rfl
  | case2 b bs ih => rw [hend, ih]
  | case3 a as b bs ih => rw [hend, ih]

theorem length_interpolateAll (m : Moment ℝ) (start stop : List ℝ) :
    (m.interpolateAll start stop).length = stop.length := by
  fun_induction interpolateAll m start stop with
  | case1 => rfl
  | case2 b bs ih => rw [List.length_cons, List.length_cons, ih]
  | case3 a as b bs ih => rw [List.length_cons, List.length_cons, ih]

end Moment

/-! ### The start of a motion -/

namespace Moment

/-- The moment is the start of a span that takes time. -/
structure IsStart (m : Moment ℝ) : Prop where
  start : m.t = m.start
  lasts : m.isInstant = false

theorem isStart_ofParts (whole : Nat) : (ofParts 0 whole : Moment ℝ).IsStart where
  start := by
    show (Nat.cast 0 : ℝ) / whole = 0
    rw [Nat.cast_zero, zero_div]
  lasts := isInstant_ofParts 0 whole

variable {m : Moment ℝ} (h : m.IsStart)

include h

theorem IsStart.interpolate (a b : ℝ) : m.interpolate a b = a := by
  rw [Moment.interpolate, h.lasts, h.start, sub_self, zero_div, mul_zero, add_zero]
  rfl

theorem IsStart.share : m.share = 0 := by
  rw [Moment.share, h.lasts, h.start, sub_self, zero_div]
  rfl

/-- The start of a motion has the axis values that it starts from. -/
theorem IsStart.interpolateAll {start stop : List ℝ} (hlength : start.length = stop.length) :
    m.interpolateAll start stop = start := by
  fun_induction Moment.interpolateAll m start stop with
  | case1 start => exact (List.eq_nil_of_length_eq_zero hlength).symm
  | case2 => exact absurd hlength.symm (Nat.succ_ne_zero _)
  | case3 a as b bs ih => rw [h.interpolate, ih (Nat.succ.inj hlength)]

end Moment

/-! ### Axes between two positions -/

/-- A span of values has no gaps. -/
theorem Moment.interpolate_mem_Icc {low high a b : ℝ} (ha : a ∈ Set.Icc low high)
    (hb : b ∈ Set.Icc low high) {part whole : Nat} (hle : part ≤ whole) :
    (ofParts part whole).interpolate a b ∈ Set.Icc low high := by
  have hnonneg : (0 : ℝ) ≤ part / whole := by positivity
  have hone : (part : ℝ) / whole ≤ 1 :=
    div_le_one_of_le₀ (Nat.cast_le.mpr hle) (Nat.cast_nonneg whole)
  rw [interpolate_ofParts]
  constructor
  · nlinarith [ha.1, hb.1]
  · nlinarith [ha.2, hb.2]

theorem Joint.isInRange_iff {joint : Joint ℝ} {value : ℝ} : joint.isInRange value = true ↔
    value ∈ Set.Icc (joint.low - joint.tolerance) (joint.high + joint.tolerance) := by
  rw [isInRange, Bool.and_eq_true, decide_eq_true_iff, decide_eq_true_iff, Set.mem_Icc]

/-- The range of an axis has no gaps. -/
theorem Joint.isInRange_interpolate {joint : Joint ℝ} {a b : ℝ} (ha : joint.isInRange a = true)
    (hb : joint.isInRange b = true) {part whole : Nat} (hle : part ≤ whole) :
    joint.isInRange ((Moment.ofParts part whole).interpolate a b) = true :=
  isInRange_iff.mpr
    (Moment.interpolate_mem_Icc (isInRange_iff.mp ha) (isInRange_iff.mp hb) hle)

theorem outOfRange_interpolateAll {part whole : Nat} (hle : part ≤ whole)
    {joints : List (Joint ℝ)} :
    ∀ {start stop : List ℝ}, start.length = stop.length → outOfRange joints start = [] →
      outOfRange joints stop = [] →
        outOfRange joints ((Moment.ofParts part whole).interpolateAll start stop) = [] := by
  simp only [outOfRange_eq_nil_iff]
  induction joints with
  | nil => intro start stop _ _ _ axis haxis; cases haxis
  | cons joint joints ih =>
    intro start stop hlength hstart hstop
    match start, stop, hlength with
    | [], [], _ => intro axis haxis; cases haxis
    | a :: start, b :: stop, hlength =>
      rw [List.zip_cons_cons, List.forall_mem_cons] at hstart hstop
      rw [Moment.interpolateAll, List.zip_cons_cons, List.forall_mem_cons]
      exact ⟨Joint.isInRange_interpolate hstart.1 hstop.1 hle,
        ih (Nat.succ.inj hlength) hstart.2 hstop.2⟩

/-! ### The ends of a turn -/

namespace Rotation

/-- Quaternions of length one with a product of one are equal. -/
theorem Proper.eq_of_one_le_dot {p q : Rotation ℝ} (hp : p.Proper) (hq : q.Proper)
    (h : 1 ≤ p.dot q) : p = q := by
  simp only [Proper, dot] at hp hq h
  have hapart : (p.w - q.w) ^ 2 + (p.i - q.i) ^ 2 + (p.j - q.j) ^ 2 + (p.k - q.k) ^ 2 ≤ 0 := by
    linarith
  ext <;> refine sub_eq_zero.mp (pow_eq_zero_iff two_ne_zero |>.mp ?_) <;> linarith [
    sq_nonneg (p.w - q.w), sq_nonneg (p.i - q.i), sq_nonneg (p.j - q.j), sq_nonneg (p.k - q.k)]

theorem Proper.neg {q : Rotation ℝ} (hq : q.Proper) : (-q).Proper := by
  rw [Proper, neg_def, dot] at *
  linear_combination hq

/-- An arc is no longer than rounding, or it can be walked. -/
theorem slerpArc?_cases {p q r : Rotation ℝ} {s : ℝ} (h : slerpArc? p q s = some r) :
    (1 ≤ p.dot q ∧ r = p) ∨ (Real.sin (Real.arccos (p.dot q)) ≠ 0 ∧ r = add
      (q.scale (Real.sin (s * Real.arccos (p.dot q)) / Real.sin (Real.arccos (p.dot q))))
      (p.scale (Real.sin ((1 - s) * Real.arccos (p.dot q)) /
        Real.sin (Real.arccos (p.dot q))))) := by
  unfold slerpArc? at h
  dsimp only at h
  split_ifs at h with hequal hshort
  · exact .inl ⟨hequal, (Option.some.inj h).symm⟩
  · have hsine : (Scalar.sqrt (1 - p.dot q * p.dot q) : ℝ) = Real.sin (Real.arccos (p.dot q)) := by
      rw [Real.sin_arccos, sq]
      rfl
    rw [hsine] at h hshort
    refine .inr ⟨fun hzero ↦ hshort ?_, (Option.some.inj h).symm⟩
    rw [hzero]
    norm_num [slerpTolerance]

/-- An arc that can be walked ends where it leads to. -/
theorem slerpArc?_one {p q r : Rotation ℝ} (hp : p.Proper) (hq : q.Proper)
    (h : slerpArc? p q 1 = some r) : r = q := by
  rcases slerpArc?_cases h with ⟨hequal, rfl⟩ | ⟨hne, rfl⟩
  · exact hp.eq_of_one_le_dot hq hequal
  · rw [one_mul, sub_self, zero_mul, Real.sin_zero, zero_div, div_self hne]
    ext <;> simp only [add, scale, mul_one, mul_zero, add_zero]

/-- An arc that can be walked starts where it leads from. -/
theorem slerpArc?_zero {p q r : Rotation ℝ} (h : slerpArc? p q 0 = some r) : r = p := by
  rcases slerpArc?_cases h with ⟨_, rfl⟩ | ⟨hne, rfl⟩
  · rfl
  · rw [zero_mul, Real.sin_zero, zero_div, sub_zero, one_mul, div_self hne]
    ext <;> simp only [add, scale, mul_one, mul_zero, zero_add]

theorem Proper.normalized_eq {q : Rotation ℝ} (hq : q.Proper) : q.normalized = q := by
  have hlength : (Scalar.sqrt (q.dot q) : ℝ) = 1 := by
    rw [hq]
    exact Real.sqrt_one
  rw [normalized, hlength]
  ext <;> exact div_one _

theorem Proper.nlerp_one {q : Rotation ℝ} (hq : q.Proper) (p : Rotation ℝ) :
    nlerp p q 1 = q := by
  have hchord : add (p.scale (1 - 1)) (q.scale 1) = q := by
    ext <;> simp only [add, scale, sub_self, mul_zero, mul_one, zero_add]
  rw [nlerp, hchord, hq.normalized_eq]

theorem Proper.nlerp_zero {p : Rotation ℝ} (hp : p.Proper) (q : Rotation ℝ) :
    nlerp p q 0 = p := by
  have hchord : add (p.scale (1 - 0)) (q.scale 0) = p := by
    ext <;> simp only [add, scale, sub_zero, mul_zero, mul_one, add_zero]
  rw [nlerp, hchord, hp.normalized_eq]

/-- The shorter way starts at the rotation that it leads from. -/
theorem slerp_zero {p : Rotation ℝ} (hp : p.Proper) (q : Rotation ℝ) :
    (slerp? p q 0).getD (nlerp p q 0) = p := by
  have harc : ∀ other : Rotation ℝ, (slerpArc? p other 0).getD (nlerp p q 0) = p := by
    intro other
    cases h : slerpArc? p other 0 with
    | none => exact hp.nlerp_zero q
    | some r => exact slerpArc?_zero h
  unfold slerp?
  split_ifs
  · exact harc (-q)
  · exact harc q

/-- The shorter way ends at the rotation that it leads to, or at its other quaternion. -/
theorem same_slerp_one {p q : Rotation ℝ} (hp : p.Proper) (hq : q.Proper) :
    ((slerp? p q 1).getD (nlerp p q 1)).Same q := by
  unfold slerp?
  split_ifs
  · cases harc : slerpArc? p (-q) 1 with
    | none => exact .inl (hq.nlerp_one p)
    | some r => exact .inr (slerpArc?_one hp hq.neg harc)
  · cases harc : slerpArc? p q 1 with
    | none => exact .inl (hq.nlerp_one p)
    | some r => exact .inl (slerpArc?_one hp hq harc)

end Rotation

/-- The start of a motion is at the pose that it starts from. -/
theorem Moment.IsStart.interpolatePose {m : Moment ℝ} (h : m.IsStart) {a : Pose ℝ} (ha : a.Rigid)
    (b : Pose ℝ) : m.interpolatePose a b = a := by
  rw [Moment.interpolatePose, h.share]
  refine Pose.ext ?_ (Rotation.slerp_zero ha b.rotation)
  ext <;> simp only [Vec3.mix, Vec3.add_def, Vec3.scale, sub_zero, mul_one, mul_zero, zero_add]

/-- The last moment of a motion is at the pose of its end. -/
theorem Moment.same_interpolatePose_ofParts_self {whole : Nat} (hwhole : whole ≠ 0) {a b : Pose ℝ}
    (ha : a.Rigid) (hb : b.Rigid) : ((ofParts whole whole).interpolatePose a b).Same b := by
  rw [interpolatePose, share_ofParts_self hwhole]
  refine ⟨?_, Rotation.same_slerp_one ha hb⟩
  ext <;> simp only [Vec3.mix, Vec3.add_def, Vec3.scale, mul_one, sub_self, mul_zero, add_zero]

end Toolpath
