import Toolpath.Cell
import Mathlib.Data.List.Basic

/-!
Where the planes of a solution stand. A mechanism with one link per axis (`Mechanism.Complete`, what
its constructors check) has its base and one plane per axis (`Mechanism.length_planes_solve`). The
planes of a group therefore start with a block for each of its mechanisms, which ends with the last
axis of the mechanism (`Group.mechanismTip?_solve`).
-/

set_option autoImplicit false
set_option relaxedAutoImplicit false

namespace Toolpath

variable {α : Type}

/-! ### Mechanisms that are complete -/

namespace Mechanism

/-- The links of the mechanism fit its axes: at most three on a track, one each on a chain. -/
def Complete (mechanism : Mechanism α) : Prop :=
  match mechanism.kind with
  | .track => mechanism.joints.length ≤ 3
  | .positioner axes => axes.length = mechanism.joints.length
  | .custom axes => axes.length = mechanism.joints.length

theorem complete_of_buildTrack {name : String} {joints : List (Joint α)} {base : Pose α}
    {movesRobot : Bool} {mechanism : Mechanism α}
    (h : buildTrack name joints base movesRobot = .ok mechanism) : mechanism.Complete := by
  simp only [buildTrack] at h
  split_ifs at h with hcount
  obtain rfl := Except.ok.inj h
  exact Nat.le_of_not_lt (not_or.mp hcount).2

theorem complete_of_buildPositioner {name : String} {joints : List (Joint α)}
    {axes : List (Pose α)} {base : Pose α} {movesRobot : Bool} {mechanism : Mechanism α}
    (h : buildPositioner name joints axes base movesRobot = .ok mechanism) :
    mechanism.Complete := by
  simp only [buildPositioner] at h
  split_ifs at h with hcount
  obtain rfl := Except.ok.inj h
  exact (not_not.mp (not_or.mp hcount).2).symm

theorem complete_of_buildCustom {name : String} {joints : List (Joint α)} {axes : List (Pose α)}
    {base : Pose α} {movesRobot : Bool} {mechanism : Mechanism α}
    (h : buildCustom name joints axes base movesRobot = .ok mechanism) : mechanism.Complete := by
  simp only [buildCustom] at h
  split_ifs at h with hcount
  obtain rfl := Except.ok.inj h
  exact (not_not.mp hcount).symm

end Mechanism

variable [Scalar α]

/-! ### Rows of axis values -/

theorem length_resize (count : Nat) (values : List α) : (resize count values).length = count := by
  rw [resize, List.rightpad, List.length_append, List.length_take, List.length_replicate]
  exact Nat.add_sub_of_le (Nat.min_le_left _ _)

theorem resize_eq_self {count : Nat} {values : List α} (h : values.length = count) :
    resize count values = values := by
  rw [resize, List.take_of_length_le (Nat.le_of_eq h), List.rightpad, h, Nat.sub_self, List.replicate_zero,
    List.append_nil]

theorem length_limitAll (joints : List (Joint α)) (values : List α) :
    (limitAll joints values).length = values.length := by
  fun_induction limitAll joints values with
  | case1 => rfl
  | case2 => rfl
  | case3 joint joints value values ih => rw [List.length_cons, List.length_cons, ih]

theorem outOfRange_eq_nil_iff {joints : List (Joint α)} {values : List α} :
    outOfRange joints values = [] ↔
      ∀ axis ∈ joints.zip values, axis.1.isInRange axis.2 = true := by
  rw [outOfRange, List.filterMap_eq_nil_iff]
  constructor
  · intro h axis haxis
    obtain ⟨place, hplace, rfl⟩ := List.mem_iff_getElem.mp haxis
    have hentry := h (_, place) (List.mem_zipIdx_iff_getElem?.mpr (List.getElem?_eq_getElem hplace))
    dsimp only at hentry
    by_contra hout
    rw [if_neg hout] at hentry
    cases hentry
  · rintro h ⟨axis, place⟩ haxis
    have hinside := h axis (List.mem_of_getElem? (List.mem_zipIdx_iff_getElem?.mp haxis))
    simp [hinside]

/-- Values in range are not moved. -/
theorem limitAll_eq_self {joints : List (Joint α)} {values : List α}
    (h : outOfRange joints values = []) : limitAll joints values = values := by
  rw [outOfRange_eq_nil_iff] at h
  fun_induction limitAll joints values with
  | case1 => rfl
  | case2 => rfl
  | case3 joint joints value values ih =>
    rw [List.zip_cons_cons, List.forall_mem_cons] at h
    rw [Joint.limit, if_pos h.1, ih h.2]

/-! ### Mechanisms -/

namespace Mechanism

theorem length_carriages {values : List α} (h : values.length ≤ 3) :
    (carriages values).length = values.length := by
  match values, h with
  | [], _ => rfl
  | [_], _ => rfl
  | [_, _], _ => rfl
  | [_, _, _], _ => rfl

theorem length_chainPlanes {axes : List (Pose α)} {joints : List (Joint α)} {values : List α}
    (hjoints : axes.length = joints.length) (hvalues : values.length = joints.length) :
    ∀ start : Pose α, (chainPlanes start axes joints values).length = joints.length := by
  induction joints generalizing axes values with
  | nil =>
    obtain rfl := List.length_eq_zero_iff.mp hjoints
    intro start
    rfl
  | cons joint joints ih =>
    obtain ⟨axis, axes, rfl⟩ := List.exists_cons_of_length_eq_add_one hjoints
    obtain ⟨value, values, rfl⟩ := List.exists_cons_of_length_eq_add_one hvalues
    intro start
    rw [chainPlanes, List.length_cons, List.length_cons,
      ih (Nat.succ.inj hjoints) (Nat.succ.inj hvalues)]

theorem length_axisPlanes {mechanism : Mechanism α} (hcomplete : mechanism.Complete)
    {values : List α} (hvalues : values.length = mechanism.axisCount) (base : Pose α) :
    (mechanism.axisPlanes base values).length = mechanism.axisCount := by
  rw [Complete] at hcomplete
  rw [axisPlanes]
  cases hkind : mechanism.kind with
  | track =>
    rw [hkind] at hcomplete
    have hthree : values.length ≤ 3 := hvalues ▸ hcomplete
    simpa [length_carriages hthree] using hvalues
  | positioner axes =>
    rw [hkind] at hcomplete
    exact length_chainPlanes hcomplete hvalues base
  | custom axes =>
    rw [hkind] at hcomplete
    exact length_chainPlanes hcomplete hvalues base

theorem length_joints_solve (mechanism : Mechanism α) (values : List α) (parent : Pose α) :
    (mechanism.solve values parent).joints.length = mechanism.axisCount := by
  rw [solve, length_limitAll, length_resize]

theorem length_planes_solve {mechanism : Mechanism α} (hcomplete : mechanism.Complete)
    (values : List α) (parent : Pose α) :
    (mechanism.solve values parent).planes.length = mechanism.axisCount + 1 := by
  have hvalues := mechanism.length_joints_solve values parent
  rw [solve, List.length_cons]
  exact congrArg Nat.succ (length_axisPlanes hcomplete hvalues _)

/-- The last plane of a solved mechanism, where a chain of planes is never empty. -/
theorem planes_getLast? (mechanism : Mechanism α) (values : List α) (parent : Pose α) :
    (mechanism.solve values parent).planes.getLast? = some (mechanism.solve values parent).tcp := by
  rw [Solution.tcp, List.getLastD_eq_getLast?, solve, List.getLast?_cons, Option.getD_some]

end Mechanism

/-! ### Groups -/

namespace Group

omit [Scalar α] in
theorem mechanismPlaneCount_cons (mechanism : Mechanism α) (mechanisms : List (Mechanism α)) :
    mechanismPlaneCount (mechanism :: mechanisms) =
      mechanism.axisCount + 1 + mechanismPlaneCount mechanisms := by
  rw [mechanismPlaneCount, List.map_cons, List.foldr_cons, mechanismPlaneCount]

theorem length_solveMechanisms (parent : Pose α) (mechanisms : List (Mechanism α)) :
    ∀ values : List α, (solveMechanisms parent mechanisms values).length = mechanisms.length := by
  induction mechanisms with
  | nil => intro values; rfl
  | cons mechanism rest ih => intro values; rw [solveMechanisms, List.length_cons, ih,
      List.length_cons]

theorem length_joints_solveMechanisms (parent : Pose α) (mechanisms : List (Mechanism α)) :
    ∀ values : List α, ((solveMechanisms parent mechanisms values).flatMap Solution.joints).length =
      (mechanisms.map Mechanism.axisCount).foldr (· + ·) 0 := by
  induction mechanisms with
  | nil => intro values; rfl
  | cons mechanism rest ih =>
    intro values
    rw [solveMechanisms, List.flatMap_cons, List.length_append, Mechanism.length_joints_solve, ih]
    rfl

/-- In a row of complete mechanisms the block of each one ends with its last plane. -/
theorem flatMap_planes_getElem? (parent : Pose α) {mechanisms : List (Mechanism α)}
    (hcomplete : ∀ mechanism ∈ mechanisms, mechanism.Complete) :
    ∀ {place : Nat} {values : List α} {moved : Solution α},
      (solveMechanisms parent mechanisms values)[place]? = some moved →
        ((solveMechanisms parent mechanisms values).flatMap Solution.planes)[
          mechanismPlaneCount (mechanisms.take (place + 1)) - 1]? = some moved.tcp := by
  induction mechanisms with
  | nil => intro place values moved h; simp [solveMechanisms] at h
  | cons mechanism rest ih =>
    intro place values moved h
    rw [List.forall_mem_cons] at hcomplete
    rw [solveMechanisms, List.flatMap_cons, List.take_succ_cons, mechanismPlaneCount_cons]
    rw [solveMechanisms] at h
    have hlength := Mechanism.length_planes_solve hcomplete.1 (values.take mechanism.axisCount)
      parent
    cases place with
    | zero =>
      obtain rfl := Option.some.inj h
      have hlast := mechanism.planes_getLast? (values.take mechanism.axisCount) parent
      rw [List.getLast?_eq_getElem?, hlength] at hlast
      rw [List.take_zero, mechanismPlaneCount, List.map_nil, List.foldr_nil, Nat.add_zero,
        List.getElem?_append_left (by rw [hlength]; exact Nat.lt_succ_self _), hlast]
    | succ place =>
      rw [List.getElem?_cons_succ] at h
      have hplace := ih hcomplete.2 h
      have hpos : 0 < mechanismPlaneCount (rest.take (place + 1)) := by
        obtain ⟨hlt, _⟩ := List.getElem?_eq_some_iff.mp h
        rw [length_solveMechanisms] at hlt
        obtain ⟨first, others, rfl⟩ := List.exists_cons_of_length_pos (Nat.zero_lt_of_lt hlt)
        rw [List.take_succ_cons, mechanismPlaneCount_cons]
        omega
      rw [List.getElem?_append_right (by omega), hlength, Nat.add_sub_assoc hpos,
        Nat.add_sub_cancel_left, hplace]

/-- The plane of a solution at the place of the last axis of a mechanism of its group. -/
def mechanismTip? (group : Group α) (solution : Solution α) (mechanism : Nat) : Option (Pose α) :=
  (group.mechanismPlane? mechanism).bind (solution.planes[·]?)

theorem mechanismTip?_solve {group : Group α}
    (hcomplete : ∀ mechanism ∈ group.externals, mechanism.Complete) (index : Nat)
    (target : Target α) (coupled : Option (Pose α)) (previous : Option (List α)) (parent : Pose α)
    {place : Nat} {moved : Solution α}
    (h : (solveMechanisms parent group.externals target.external)[place]? = some moved) :
    group.mechanismTip? (group.solve index target coupled previous parent) place =
      some moved.tcp := by
  obtain ⟨hlt, _⟩ := List.getElem?_eq_some_iff.mp h
  rw [length_solveMechanisms] at hlt
  have hplace := flatMap_planes_getElem? parent hcomplete h
  obtain ⟨hinside, _⟩ := List.getElem?_eq_some_iff.mp hplace
  rw [mechanismTip?, mechanismPlane?, if_pos hlt, Option.bind_some, solve, List.append_assoc,
    List.getElem?_append_left hinside, hplace]

theorem planes_getLast? (group : Group α) (index : Nat) (target : Target α)
    (coupled : Option (Pose α)) (previous : Option (List α)) (parent : Pose α) :
    (group.solve index target coupled previous parent).planes.getLast? =
      some (group.solve index target coupled previous parent).tcp := by
  rw [Solution.tcp, List.getLastD_eq_getLast?, solve, List.getLast?_concat, Option.getD_some]

end Group

end Toolpath
