import Toolpath.Proofs.Exact.Interpolation
import Toolpath.Proofs.Exact.Positions
import Toolpath.Proofs.Totality

/-!
Positions of a group with all its axes in range, those of its mechanisms too. A group without faults
stands on such a position (`Group.admits_solve`), and it takes every such position that it is asked
for (`Group.solve_asked`), wherever it is mounted and whatever came before. The ranges have no gaps,
so that all positions between two of them are admitted as well (`Group.Admits.interpolateAll`): a
group off a straight way is asked for nothing else (`Step.asks_between`).
-/

set_option autoImplicit false
set_option relaxedAutoImplicit false

namespace Toolpath

/-! ### Rows of axis values -/

section Rows

variable {α : Type} [Scalar α]

theorem outOfRange_append {joints others : List (Joint α)} {values more : List α}
    (h : values.length = joints.length) :
    outOfRange (joints ++ others) (values ++ more) = [] ↔
      outOfRange joints values = [] ∧ outOfRange others more = [] := by
  simp only [outOfRange_eq_nil_iff]
  rw [List.zip_append h.symm, List.forall_mem_append]

theorem Moment.interpolateAll_eq_zipWith (m : Moment α) {start stop : List α}
    (h : start.length = stop.length) :
    m.interpolateAll start stop = List.zipWith m.interpolate start stop := by
  fun_induction interpolateAll m start stop with
  | case1 start => rw [List.zipWith_nil_right]
  | case2 => exact absurd h.symm (Nat.succ_ne_zero _)
  | case3 a as b bs ih => rw [List.zipWith_cons_cons, ih (Nat.succ.inj h)]

theorem Moment.take_interpolateAll (m : Moment α) (start stop : List α) (count : Nat) :
    (m.interpolateAll start stop).take count =
      m.interpolateAll (start.take count) (stop.take count) := by
  fun_induction interpolateAll m start stop generalizing count with
  | case1 start => rw [List.take_nil, interpolateAll]
  | case2 b bs ih =>
    cases count with
    | zero => simp only [List.take_zero, interpolateAll]
    | succ count => simp only [List.take_succ_cons, List.take_nil, interpolateAll, ih]
  | case3 a as b bs ih =>
    cases count with
    | zero => simp only [List.take_zero, interpolateAll]
    | succ count => simp only [List.take_succ_cons, interpolateAll, ih]

theorem Moment.drop_interpolateAll (m : Moment α) (start stop : List α) (count : Nat) :
    (m.interpolateAll start stop).drop count =
      m.interpolateAll (start.drop count) (stop.drop count) := by
  fun_induction interpolateAll m start stop generalizing count with
  | case1 start => rw [List.drop_nil, interpolateAll]
  | case2 b bs ih =>
    cases count with
    | zero => simp only [List.drop_zero, interpolateAll]
    | succ count => simp only [List.drop_succ_cons, List.drop_nil, ih]
  | case3 a as b bs ih =>
    cases count with
    | zero => simp only [List.drop_zero, interpolateAll]
    | succ count => simp only [List.drop_succ_cons, ih]

variable {parent : Pose α} {mechanisms : List (Mechanism α)}

/-- Mechanisms without faults stand in their ranges. -/
theorem Group.outOfRange_joints_solveMechanisms : ∀ {values : List α},
    (solveMechanisms parent mechanisms values).flatMap Solution.faults = [] →
      outOfRange (mechanisms.flatMap Mechanism.joints)
        ((solveMechanisms parent mechanisms values).flatMap Solution.joints) = [] := by
  induction mechanisms with
  | nil => intro values _; rfl
  | cons mechanism rest ih =>
    intro values hfaults
    rw [solveMechanisms, List.flatMap_cons, List.append_eq_nil_iff] at hfaults
    have hinside : outOfRange mechanism.joints
        (resize mechanism.axisCount (values.take mechanism.axisCount)) = [] :=
      List.map_eq_nil_iff.mp hfaults.1
    have hjoints : (mechanism.solve (values.take mechanism.axisCount) parent).joints =
        resize mechanism.axisCount (values.take mechanism.axisCount) := limitAll_eq_self hinside
    rw [solveMechanisms, List.flatMap_cons, List.flatMap_cons,
      outOfRange_append (mechanism.length_joints_solve _ parent), hjoints]
    exact ⟨hinside, ih hfaults.2⟩

/-- Mechanisms take the values that are in their ranges. -/
theorem Group.solveMechanisms_admitted : ∀ {values : List α},
    values.length = (mechanisms.map Mechanism.axisCount).foldr (· + ·) 0 →
      outOfRange (mechanisms.flatMap Mechanism.joints) values = [] →
        (solveMechanisms parent mechanisms values).flatMap Solution.joints = values ∧
          (solveMechanisms parent mechanisms values).flatMap Solution.faults = [] := by
  induction mechanisms with
  | nil =>
    intro values hlength _
    exact ⟨(List.length_eq_zero_iff.mp hlength).symm, rfl⟩
  | cons mechanism rest ih =>
    intro values hlength hinside
    rw [List.map_cons, List.foldr_cons] at hlength
    have hown : (values.take mechanism.axisCount).length = mechanism.axisCount := by
      rw [List.length_take, hlength]
      omega
    have hrest : (values.drop mechanism.axisCount).length =
        (rest.map Mechanism.axisCount).foldr (· + ·) 0 := by
      rw [List.length_drop, hlength, Nat.add_sub_cancel_left]
    rw [List.flatMap_cons, ← List.take_append_drop mechanism.axisCount values,
      outOfRange_append hown] at hinside
    obtain ⟨hjoints, hfaults⟩ := ih hrest hinside.2
    have hgiven := resize_eq_self hown
    have hvalues : (mechanism.solve (values.take mechanism.axisCount) parent).joints =
        values.take mechanism.axisCount := by
      rw [Mechanism.solve, hgiven]
      exact limitAll_eq_self hinside.1
    have hclean : (mechanism.solve (values.take mechanism.axisCount) parent).faults = [] := by
      rw [Mechanism.solve, hgiven]
      exact List.map_eq_nil_iff.mpr hinside.1
    rw [solveMechanisms, List.flatMap_cons, List.flatMap_cons, hjoints, hfaults, hvalues, hclean]
    exact ⟨List.take_append_drop _ _, rfl⟩

end Rows

/-! ### Positions of an arm -/

namespace Arm

section Admitted

variable {α : Type} [Scalar α]

/-- The arm can take the axis values. -/
structure Admits (arm : Arm α) (values : List α) : Prop where
  length : values.length = arm.axisCount
  inRange : outOfRange arm.joints values = []

/-- Axis values that the arm can take are its position, in any frame and on any mount. -/
theorem solve_admitted {arm : Arm α} {target : Target α} {values : List α}
    (hgoal : target.goal = .joints values) (hvalues : arm.Admits values) (frame : Pose α)
    (previous : Option (List α)) (parent : Pose α) :
    (arm.solve target frame previous parent).joints = values ∧
      (arm.solve target frame previous parent).faults = [] := by
  have hposition : arm.position target (parent * arm.base) frame previous =
      ⟨values, arm.configurationOf values, []⟩ := by
    simp only [position, hgoal, place, hvalues.length, if_true]
  simp only [solve, hposition, limitAll_eq_self hvalues.inRange, hvalues.inRange, List.map_nil,
    List.append_nil, and_self]

end Admitted

variable {arm : Arm ℝ} {target : Target ℝ} {frame parent : Pose ℝ} {before : Option (List ℝ)}

/-- Without faults no axis value had to be moved into its range. -/
theorem joints_solve_of_faults
    (hfaults : (arm.solve target frame before parent).faults = []) :
    (arm.solve target frame before parent).joints =
      (arm.position target (parent * arm.base) frame before).joints := by
  obtain ⟨_, hranges⟩ := List.append_eq_nil_iff.mp hfaults
  exact limitAll_eq_self (List.map_eq_nil_iff.mp hranges)

theorem admits_solve (hfaults : (arm.solve target frame before parent).faults = []) :
    arm.Admits (arm.solve target frame before parent).joints := by
  refine ⟨arm.length_joints_solve target frame before parent, ?_⟩
  obtain ⟨_, hranges⟩ := List.append_eq_nil_iff.mp hfaults
  rw [joints_solve_of_faults hfaults]
  exact List.map_eq_nil_iff.mp hranges

end Arm

/-! ### Positions of a group -/

namespace Group

section Parts

variable {α : Type} [Scalar α]

/-- The arm of a group with its mount and its frame. -/
def armSolution (group : Group α) (index : Nat) (target : Target α)
    (coupled : Option (Pose α)) (previous : Option (List α)) (parent : Pose α) : Solution α :=
  group.arm.solve target (group.solve index target coupled previous parent).frame
    (previous.map (·.take group.arm.axisCount))
    (armParent parent group.externals
      ((solveMechanisms parent group.externals target.external).map Solution.tcp))

variable (group : Group α) (index : Nat) (target : Target α) (coupled : Option (Pose α))
  (previous : Option (List α)) (parent : Pose α)

theorem joints_solve : (group.solve index target coupled previous parent).joints =
    (group.armSolution index target coupled previous parent).joints ++
      (solveMechanisms parent group.externals target.external).flatMap Solution.joints :=
  rfl

theorem faults_solve : (group.solve index target coupled previous parent).faults =
    (group.armSolution index target coupled previous parent).faults ++
      (solveMechanisms parent group.externals target.external).flatMap Solution.faults :=
  rfl

variable {group index target coupled previous parent} in
/-- Axis values that are reached without faults are such that the arm can take. -/
theorem admits_of_solve {values : List α} (hgoal : target.goal = .joints values)
    (hfaults : (group.solve index target coupled previous parent).faults = []) :
    group.arm.Admits values := by
  have harm := (List.append_eq_nil_iff.mp hfaults).1
  simp only [Arm.solve, Arm.position, hgoal, Arm.place, List.append_eq_nil_iff,
    List.map_eq_nil_iff] at harm
  obtain ⟨hcount, hranges⟩ := harm
  have hlength : values.length = group.arm.axisCount := by
    by_contra hne
    rw [if_neg hne] at hcount
    cases hcount
  rw [if_pos hlength] at hranges
  exact ⟨hlength, hranges⟩

end Parts

section Solved

variable (group : Group ℝ) (index : Nat) (target : Target ℝ) (coupled : Option (Pose ℝ))
  (previous : Option (List ℝ)) (parent : Pose ℝ)

theorem take_joints_solve :
    (group.solve index target coupled previous parent).joints.take group.arm.axisCount =
      (group.armSolution index target coupled previous parent).joints := by
  rw [joints_solve]
  exact List.take_left' (group.arm.length_joints_solve _ _ _ _)

theorem drop_joints_solve :
    (group.solve index target coupled previous parent).joints.drop group.arm.axisCount =
      (solveMechanisms parent group.externals target.external).flatMap Solution.joints := by
  rw [joints_solve]
  exact List.drop_left' (group.arm.length_joints_solve _ _ _ _)

end Solved

/-- The group can take the axis values: there is one for each of its axes, in the range of the
axis. -/
structure Admits (group : Group ℝ) (values : List ℝ) : Prop where
  length : values.length = group.jointCount
  arm : outOfRange group.arm.joints (values.take group.arm.axisCount) = []
  external : outOfRange (group.externals.flatMap Mechanism.joints)
    (values.drop group.arm.axisCount) = []

variable {group : Group ℝ} {index : Nat} {target : Target ℝ} {coupled : Option (Pose ℝ)}
  {previous : Option (List ℝ)} {parent : Pose ℝ} {values start stop : List ℝ}

theorem faults_armSolution (h : (group.solve index target coupled previous parent).faults = []) :
    (group.armSolution index target coupled previous parent).faults = [] :=
  (List.append_eq_nil_iff.mp (faults_solve group index target coupled previous parent ▸ h)).1

theorem admits_solve (h : (group.solve index target coupled previous parent).faults = []) :
    group.Admits (group.solve index target coupled previous parent).joints where
  length := group.length_joints_solve index target coupled previous parent
  arm := by
    rw [take_joints_solve]
    exact (Arm.admits_solve (faults_armSolution h)).inRange
  external := by
    rw [faults_solve, List.append_eq_nil_iff] at h
    rw [drop_joints_solve]
    exact outOfRange_joints_solveMechanisms h.2

theorem admits_append {external : List ℝ} (harm : group.arm.Admits values)
    (hlength : external.length = group.externalCount)
    (hinside : outOfRange (group.externals.flatMap Mechanism.joints) external = []) :
    group.Admits (values ++ external) where
  length := by rw [List.length_append, harm.length, hlength, jointCount]
  arm := by rw [List.take_left' harm.length]; exact harm.inRange
  external := by rw [List.drop_left' harm.length]; exact hinside

namespace Admits

theorem length_take (h : group.Admits values) :
    (values.take group.arm.axisCount).length = group.arm.axisCount := by
  rw [List.length_take, h.length, jointCount, Nat.min_eq_left (Nat.le_add_right _ _)]

theorem length_drop (h : group.Admits values) :
    (values.drop group.arm.axisCount).length = group.externalCount := by
  rw [List.length_drop, h.length, jointCount, Nat.add_sub_cancel_left]

/-- Between two positions in range every position is. -/
theorem interpolateAll (hstart : group.Admits start) (hstop : group.Admits stop)
    {part whole : Nat} (hle : part ≤ whole) :
    group.Admits ((Moment.ofParts part whole).interpolateAll start stop) := by
  refine ⟨(Moment.length_interpolateAll _ _ _).trans hstop.length, ?_, ?_⟩
  · rw [Moment.take_interpolateAll]
    exact outOfRange_interpolateAll hle (hstart.length_take.trans hstop.length_take.symm)
      hstart.arm hstop.arm
  · rw [Moment.drop_interpolateAll]
    exact outOfRange_interpolateAll hle (hstart.length_drop.trans hstop.length_drop.symm)
      hstart.external hstop.external

end Admits

end Group

/-- The target asks the group for axis values, each in the range of its axis. -/
structure Target.Asks (target : Target ℝ) (group : Group ℝ) (values : List ℝ) : Prop where
  goal : target.goal = .joints (values.take group.arm.axisCount)
  external : target.external = values.drop group.arm.axisCount
  admits : group.Admits values

/-- A group takes the axis values that it is asked for, in any frame and on any parent. -/
theorem Group.solve_asked {group : Group ℝ} {target : Target ℝ} {values : List ℝ}
    (h : target.Asks group values) (index : Nat) (coupled : Option (Pose ℝ))
    (previous : Option (List ℝ)) (parent : Pose ℝ) :
    (group.solve index target coupled previous parent).joints = values ∧
      (group.solve index target coupled previous parent).faults = [] := by
  obtain ⟨hjoints, hfaults⟩ :
      (solveMechanisms parent group.externals target.external).flatMap Solution.joints =
          target.external ∧
        (solveMechanisms parent group.externals target.external).flatMap Solution.faults = [] := by
    rw [h.external]
    exact solveMechanisms_admitted h.admits.length_drop h.admits.external
  obtain ⟨harm, hclean⟩ := Arm.solve_admitted h.goal ⟨h.admits.length_take, h.admits.arm⟩
    (group.solve index target coupled previous parent).frame
    (previous.map (·.take group.arm.axisCount)) (armParent parent group.externals
      ((solveMechanisms parent group.externals target.external).map Solution.tcp))
  have hrow : values.take group.arm.axisCount ++ target.external = values := by
    rw [h.external, List.take_append_drop]
  rw [joints_solve, faults_solve, hjoints, hfaults, List.append_nil]
  exact ⟨(congrArg (· ++ target.external) harm).trans hrow, hclean⟩

theorem Cell.solve_asked {cell : Cell ℝ} {targets : List (Target ℝ)}
    {previous : Option (List (List ℝ))} {solutions : List (Solution ℝ)}
    (hsolve : cell.solve targets previous = .ok solutions) {index : Nat} {group : Group ℝ}
    {target : Target ℝ} {solution : Solution ℝ} {values : List ℝ}
    (hgroup : cell.groups[index]? = some group) (htarget : targets[index]? = some target)
    (hsolution : solutions[index]? = some solution) (h : target.Asks group values) :
    solution.joints = values ∧ solution.faults = [] := by
  obtain ⟨given, coupled, hgiven, hfound⟩ := exists_solve_of_group hsolve hgroup
  obtain rfl := Option.some.inj (htarget.symm.trans hgiven)
  obtain rfl := Option.some.inj (hfound.symm.trans hsolution)
  exact Group.solve_asked h index coupled _ _

/-! ### Positions on the way -/

namespace Waypoint

variable {waypoint previous : Waypoint ℝ}

/-- Off a straight way a group is asked for axis values. -/
theorem goal_between_joint (hjoint : waypoint.target.isLinear = false) (previous : Waypoint ℝ)
    (armAxes : Nat) (m : Moment ℝ) :
    (waypoint.between previous armAxes m).goal =
      .joints (m.interpolateAll (previous.solution.joints.take armAxes)
        (waypoint.solution.joints.take armAxes)) := by
  rw [Target.isLinear] at hjoint
  cases hgoal : waypoint.target.goal with
  | joints values =>
    rw [between, hgoal]
    rfl
  | cartesian pose forced motion =>
    rw [hgoal] at hjoint
    cases motion with
    | joint =>
      rw [between, hgoal]
      rfl
    | linear => cases hjoint

/-- On a straight way the group is asked for the next pose without a configuration. -/
theorem goal_between_linear {pose : Pose ℝ} {forced : Option Configuration}
    (hgoal : waypoint.target.goal = .cartesian pose forced .linear) (previous : Waypoint ℝ)
    (armAxes : Nat) (m : Moment ℝ) :
    (waypoint.between previous armAxes m).goal =
      .cartesian (m.interpolatePose (waypoint.previousPlane previous) pose) none .linear := by
  rw [between, hgoal]
  rfl

/-- Between two positions of a group off a straight way the group is asked for the one in
between. -/
theorem asks_between {group : Group ℝ} (hjoint : waypoint.target.isLinear = false)
    (hstart : group.Admits previous.solution.joints) (hstop : group.Admits waypoint.solution.joints)
    {part whole : Nat} (hle : part ≤ whole) :
    (waypoint.between previous group.arm.axisCount (.ofParts part whole)).Asks group
      ((Moment.ofParts part whole).interpolateAll previous.solution.joints
        waypoint.solution.joints) := by
  refine ⟨?_, ?_, hstart.interpolateAll hstop hle⟩
  · rw [goal_between_joint hjoint, Moment.take_interpolateAll]
  · rw [Moment.drop_interpolateAll]
    rfl

end Waypoint

theorem Step.asks_between {cell : Cell ℝ} {previous next : Step ℝ} {index : Nat} {group : Group ℝ}
    {start stop : Solution ℝ} {target : Target ℝ} (hgroup : cell.groups[index]? = some group)
    (hjoint : ∀ target, next.targets[index]? = some target → target.isLinear = false)
    (hstart : previous.solutions[index]? = some start) (hstop : next.solutions[index]? = some stop)
    (hadmits : group.Admits start.joints) (hstopAdmits : group.Admits stop.joints)
    {part whole : Nat} (hle : part ≤ whole)
    (htarget : (next.between previous cell (.ofParts part whole))[index]? = some target) :
    target.Asks group ((Moment.ofParts part whole).interpolateAll start.joints stop.joints) := by
  obtain ⟨waypoint, before, hwaypoint, hbefore, rfl⟩ := exists_between_of_getElem? htarget
  obtain rfl := Option.some.inj ((getElem?_solutions hwaypoint).symm.trans hstop)
  obtain rfl := Option.some.inj ((getElem?_solutions hbefore).symm.trans hstart)
  rw [Cell.armAxisCount_of_getElem? hgroup]
  exact Waypoint.asks_between (hjoint _ (getElem?_targets hwaypoint)) hadmits hstopAdmits hle

end Toolpath
