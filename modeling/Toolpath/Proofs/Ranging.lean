import Toolpath.Proofs.Playback.Rising
import Toolpath.Proofs.Layout

/-!
Axis ranges are enforced and reported. Arms and mechanisms handle a row of given values alike: the
values that are returned are in range, those that were in range are returned as they were given, and
the others are reported, each once and in the order of the axes (`Ranged`). A solved group therefore
has the planes of the values that it returns (`Group.posed`), and its faults are those of the solver,
which reports no range (`Arm.isRange_of_mem_faults_position`), then those of the arm axes, then those
of each mechanism (`Cell.solve_keeps_ranges`).
-/

set_option autoImplicit false
set_option relaxedAutoImplicit false

namespace Toolpath

/-- Numbers in which a range is no smaller for the tolerance that is added at its ends, however far
out they are. -/
class TolerantScalar (α : Type) [Scalar α] : Prop extends OrderedScalar α where
  sub_tolerance_le {x : α} (joint : Joint α) : x ≤ x → x - joint.tolerance ≤ x
  le_add_tolerance {x : α} (joint : Joint α) : x ≤ x → x ≤ x + joint.tolerance

theorem Joint.tolerance_nonneg (joint : Joint ℝ) : 0 ≤ joint.tolerance := by
  rw [tolerance]
  cases joint.kind <;> norm_num

instance : TolerantScalar ℝ where
  sub_tolerance_le := fun joint _ ↦ sub_le_self _ joint.tolerance_nonneg
  le_add_tolerance := fun joint _ ↦ le_add_of_nonneg_right joint.tolerance_nonneg

variable {α : Type} [Scalar α]

/-! ### One axis -/

namespace Joint

section Ordered

variable [OrderedScalar α] {joint : Joint α}

theorem low_le_clamp (h : joint.low ≤ joint.high) (value : α) : joint.low ≤ joint.clamp value := by
  obtain ⟨hlow, hhigh⟩ := OrderedScalar.refl_of_le h
  have hraised : joint.low ≤ Scalar.larger value joint.low := by
    rw [Scalar.larger]
    split_ifs with hbelow hself
    · exact hlow
    · exact OrderedScalar.le_of_not_lt hself hlow hbelow
    · exact hlow
  rw [clamp, Scalar.smaller]
  split_ifs
  · exact h
  · exact hraised
  · exact h

theorem clamp_le_high (h : joint.low ≤ joint.high) (value : α) :
    joint.clamp value ≤ joint.high := by
  obtain ⟨-, hhigh⟩ := OrderedScalar.refl_of_le h
  rw [clamp, Scalar.smaller]
  split_ifs with habove hself
  · exact hhigh
  · exact OrderedScalar.le_of_not_lt hhigh hself habove
  · exact hhigh

end Ordered

theorem isInRange_clamp [TolerantScalar α] {joint : Joint α} (h : joint.low ≤ joint.high)
    (value : α) : joint.isInRange (joint.clamp value) = true := by
  obtain ⟨hlow, hhigh⟩ := OrderedScalar.refl_of_le h
  rw [isInRange, Bool.and_eq_true, decide_eq_true_iff, decide_eq_true_iff]
  exact ⟨OrderedScalar.le_trans (TolerantScalar.sub_tolerance_le joint hlow) (low_le_clamp h value),
    OrderedScalar.le_trans (clamp_le_high h value) (TolerantScalar.le_add_tolerance joint hhigh)⟩

theorem isInRange_limit [TolerantScalar α] {joint : Joint α} (h : joint.low ≤ joint.high)
    (value : α) : joint.isInRange (joint.limit value) = true := by
  rw [limit]
  split_ifs with hinside
  · exact hinside
  · exact isInRange_clamp h value

theorem limit_of_isInRange {joint : Joint α} {value : α} (h : joint.isInRange value = true) :
    joint.limit value = value :=
  if_pos h

end Joint

/-! ### Rows of axis values -/

/-- A row of given axis values is kept in the ranges of its axes: the values that are returned, and
the places that are reported. -/
structure Ranged (joints : List (Joint α)) (given returned : List α) (reported : List Nat) :
    Prop where
  length : returned.length = given.length
  isInRange {place : Nat} {joint : Joint α} {value : α} (hjoint : joints[place]? = some joint)
    (hvalue : returned[place]? = some value) (h : joint.low ≤ joint.high) :
    joint.isInRange value = true
  unchanged {place : Nat} {joint : Joint α} {value : α} (hjoint : joints[place]? = some joint)
    (hvalue : given[place]? = some value) (h : joint.isInRange value = true) :
    returned[place]? = some value
  /-- No axis is reported twice, and the axes are in order. -/
  increasing : reported.Pairwise (· < ·)
  mem_reported {place : Nat} : place ∈ reported ↔ ∃ joint value, joints[place]? = some joint ∧
    given[place]? = some value ∧ joint.isInRange value = false

theorem getElem?_limitAll {joints : List (Joint α)} {values : List α} :
    ∀ {place : Nat} {joint : Joint α}, joints[place]? = some joint →
      (limitAll joints values)[place]? = values[place]?.map joint.limit := by
  fun_induction limitAll joints values with
  | case1 => intro place joint _; rfl
  | case2 => intro place joint h; cases h
  | case3 first joints value values ih =>
    intro place joint h
    cases place with
    | zero =>
      obtain rfl := Option.some.inj h
      rfl
    | succ place => exact ih h

theorem mem_outOfRange_iff {joints : List (Joint α)} {values : List α} {place : Nat} :
    place ∈ outOfRange joints values ↔ ∃ joint value, joints[place]? = some joint ∧
      values[place]? = some value ∧ joint.isInRange value = false := by
  simp only [outOfRange, List.mem_filterMap, Prod.exists, List.mem_zipIdx_iff_getElem?,
    List.getElem?_zip_eq_some, Option.ite_none_left_eq_some, Bool.not_eq_true, Option.some.injEq]
  constructor
  · rintro ⟨joint, value, _, ⟨hjoint, hvalue⟩, hout, rfl⟩
    exact ⟨joint, value, hjoint, hvalue, hout⟩
  · rintro ⟨joint, value, hjoint, hvalue, hout⟩
    exact ⟨joint, value, place, ⟨hjoint, hvalue⟩, hout, rfl⟩

theorem pairwise_outOfRange (joints : List (Joint α)) (values : List α) :
    (outOfRange joints values).Pairwise (· < ·) := by
  rw [outOfRange, List.pairwise_filterMap]
  have hplaces : ((joints.zip values).zipIdx.map Prod.snd).Pairwise (· < ·) := by
    rw [List.zipIdx_map_snd]
    exact List.pairwise_lt_range'
  refine (List.pairwise_map.mp hplaces).imp fun {a b} hlt place hplace other hother ↦ ?_
  have ha := (Option.ite_none_left_eq_some.mp hplace).2
  have hb := (Option.ite_none_left_eq_some.mp hother).2
  exact Option.some.inj ha ▸ Option.some.inj hb ▸ hlt

/-- What arms and mechanisms do with a row of axis values. -/
theorem ranged_limitAll [TolerantScalar α] (joints : List (Joint α)) (values : List α) :
    Ranged joints values (limitAll joints values) (outOfRange joints values) where
  length := length_limitAll joints values
  isInRange := fun hjoint hvalue h ↦ by
    rw [getElem?_limitAll hjoint] at hvalue
    obtain ⟨value, -, rfl⟩ := Option.map_eq_some_iff.mp hvalue
    exact Joint.isInRange_limit h value
  unchanged := fun hjoint hvalue h ↦ by
    rw [getElem?_limitAll hjoint, hvalue, Option.map_some, Joint.limit_of_isInRange h]
  increasing := pairwise_outOfRange joints values
  mem_reported := mem_outOfRange_iff

/-! ### Faults of the solver -/

/-- Whether the fault is about the range of an axis. -/
def Fault.isRange : Fault → Bool
  | axisOutOfRange _ => true
  | mechanismOutOfRange _ _ => true
  | _ => false

theorem isRange_of_mem_ite {condition : Prop} [Decidable condition] {reported fault : Fault}
    (hreported : reported.isRange = false) (h : fault ∈ if condition then [reported] else []) :
    fault.isRange = false := by
  obtain ⟨-, hfault⟩ := List.mem_ite_nil_right.mp h
  exact List.mem_singleton.mp hfault ▸ hreported

theorem isRange_of_mem_wristAngles {residual : Basis α} {positive : Bool} {fault : Fault}
    (h : fault ∈ (wristAngles residual positive).2) : fault.isRange = false := by
  unfold wristAngles at h
  dsimp only at h
  by_cases hstraight : Scalar.abs (residual.z.z - 1) < singularityTolerance
  · rw [if_pos hstraight, List.mem_singleton] at h
    exact h ▸ rfl
  · rw [if_neg hstraight] at h
    cases h

theorem OffsetWrist.isRange_of_mem_axisSix {flange : Pose α} {q1 q5 : α} {fault : Fault}
    (h : fault ∈ (axisSix flange q1 q5).2) : fault.isRange = false := by
  unfold axisSix at h
  dsimp only at h
  by_cases hsingular : Scalar.abs (Scalar.sin q5) < singularityTolerance
  · rw [if_pos hsingular, List.mem_singleton] at h
    exact h ▸ rfl
  · rw [if_neg hsingular] at h
    cases h

namespace Solver

theorem isRange_of_mem_inverse {solver : Solver α} {flange : Pose α} {configuration : Configuration}
    {redundancy : α} {fault : Fault}
    (h : fault ∈ (solver.inverse flange configuration redundancy).faults) :
    fault.isRange = false := by
  rcases solver with arm | arm | arm
  · simp only [inverse, SphericalWrist.inverse, List.mem_append] at h
    rcases h with (hbase | hwrist) | hreach
    · exact isRange_of_mem_ite rfl hbase
    · exact isRange_of_mem_wristAngles hwrist
    · exact List.mem_singleton.mp (List.mem_ite_nil_left.mp hreach).2 ▸ rfl
  · simp only [inverse, OffsetWrist.inverse, List.mem_append] at h
    rcases h with (((hone | hfive) | hsix) | hthree) | hnumeric
    · exact isRange_of_mem_ite rfl hone
    · exact isRange_of_mem_ite rfl hfive
    · exact OffsetWrist.isRange_of_mem_axisSix hsix
    · exact isRange_of_mem_ite rfl hthree
    · exact List.mem_singleton.mp (List.mem_ite_nil_left.mp hnumeric).2 ▸ rfl
  · simp only [inverse, RedundantArm.inverse, List.mem_append] at h
    rcases h with ((hfour | htwo) | hone) | hwrist
    · exact isRange_of_mem_ite rfl hfour
    · exact isRange_of_mem_ite rfl htwo
    · exact isRange_of_mem_ite rfl hone
    · exact isRange_of_mem_wristAngles hwrist

theorem mem_of_foldl_nearer {candidates : List (ClosestBranch α)} {kept : ClosestBranch α} :
    ∀ {best : Option (ClosestBranch α)}, candidates.foldl nearer best = some kept →
      best = some kept ∨ kept ∈ candidates := by
  induction candidates with
  | nil => exact fun h ↦ .inl h
  | cons candidate rest ih =>
    intro best h
    rcases ih h with hkept | hrest
    · have hnearer : nearer best candidate = best ∨ nearer best candidate = some candidate ∨
          nearer best candidate = none := by
        cases best with
        | none =>
          rw [nearer]
          split_ifs
          · exact .inr (.inl rfl)
          · exact .inr (.inr rfl)
        | some held =>
          rw [nearer]
          split_ifs
          · exact .inr (.inl rfl)
          · exact .inl rfl
      rcases hnearer with hsame | hnew | hnone
      · exact .inl (hsame ▸ hkept)
      · exact .inr (Option.some.inj (hnew.symm.trans hkept) ▸ List.mem_cons_self)
      · cases hnone.symm.trans hkept
    · exact .inr (List.mem_cons_of_mem _ hrest)

/-- The closest branch is one of the branches. -/
theorem exists_follow_eq_of_closest? {solver : Solver α} {flange : Pose α} {previous : List α}
    {closest : ClosestBranch α} (h : solver.closest? flange previous = some closest) :
    ∃ configuration, solver.follow flange previous configuration = closest := by
  rcases mem_of_foldl_nearer h with hnone | hmem
  · cases hnone
  · obtain ⟨configuration, -, hfollow⟩ := List.mem_map.mp hmem
    exact ⟨configuration, hfollow⟩

end Solver

namespace Arm

theorem isRange_of_mem_faults_reach {arm : Arm α} {flange : Pose α} {forced : Option Configuration}
    {previous : Option (List α)} {fault : Fault}
    (h : fault ∈ (arm.reach flange forced previous).faults) : fault.isRange = false := by
  rcases forced with - | forced <;> rcases previous with - | previous
  · exact Solver.isRange_of_mem_inverse h
  · rw [reach] at h
    cases hclosest : arm.solver.closest? flange previous with
    | none =>
      rw [hclosest] at h
      cases h
    | some closest =>
      rw [hclosest] at h
      obtain ⟨configuration, rfl⟩ := Solver.exists_follow_eq_of_closest? hclosest
      exact Solver.isRange_of_mem_inverse h
  · exact Solver.isRange_of_mem_inverse h
  · exact Solver.isRange_of_mem_inverse h

/-- Before the axis values are checked no fault is about a range. -/
theorem isRange_of_mem_faults_position {arm : Arm α} {target : Target α} {base frame : Pose α}
    {previous : Option (List α)} {fault : Fault}
    (h : fault ∈ (arm.position target base frame previous).faults) : fault.isRange = false := by
  rw [position] at h
  cases hgoal : target.goal with
  | cartesian pose forced motion =>
    rw [hgoal] at h
    exact isRange_of_mem_faults_reach h
  | joints values =>
    rw [hgoal] at h
    exact List.mem_singleton.mp (List.mem_ite_nil_left.mp h).2 ▸ rfl

end Arm

/-! ### Planes of given axis values -/

/-- The planes of the mechanism on `parent` with the given axis values: its base and its axes. -/
def Mechanism.posed (mechanism : Mechanism α) (parent : Pose α) (values : List α) :
    List (Pose α) :=
  parent * mechanism.base :: mechanism.axisPlanes (parent * mechanism.base) values

namespace Group

/-- The planes of each mechanism of the group with the given axis values, one row of values for each
mechanism. -/
def posedMechanisms (group : Group α) (parent : Pose α) (externals : List (List α)) :
    List (List (Pose α)) :=
  List.zipWith (fun mechanism values ↦ mechanism.posed parent values) group.externals externals

/-- The base of the arm with the given axis values of the mechanisms. -/
def posedBase (group : Group α) (parent : Pose α) (externals : List (List α)) : Pose α :=
  armParent parent group.externals
    ((group.posedMechanisms parent externals).map (·.getLastD 1)) * group.arm.base

/-- The planes of the group on `parent` with the given axis values of the arm and of each
mechanism. -/
def posed (group : Group α) (parent tool : Pose α) (arm : List α) (externals : List (List α)) :
    List (Pose α) :=
  let base := group.posedBase parent externals
  let links := base :: (group.arm.solver.forward arm).map (base * ·)
  (group.posedMechanisms parent externals).flatten ++ links ++ [links.getLastD 1 * tool]

/-- The position of the arm as the solver gives it, on its mount. -/
def posedPosition (group : Group α) (target : Target α) (parent frame : Pose α)
    (previous : Option (List α)) (externals : List (List α)) : ArmPosition α :=
  group.arm.position target (group.posedBase parent externals) frame
    (previous.map (·.take group.arm.axisCount))

/-! ### Groups -/

/-- A solution of the group keeps the ranges of all axes: `arm` and `externals` are the axis values
that are returned, `axes` and `externalAxes` the axes that are reported. -/
structure KeepsRanges (group : Group α) (target : Target α) (parent : Pose α)
    (previous : Option (List α)) (solution : Solution α) (arm : List α)
    (externals : List (List α)) (axes : List Nat) (externalAxes : List (List Nat)) : Prop where
  joints_eq : solution.joints = arm ++ externals.flatten
  ranged_arm : Ranged group.arm.joints
    (group.posedPosition target parent solution.frame previous externals).joints arm axes
  length_externals : externals.length = group.externals.length
  length_externalAxes : externalAxes.length = group.externals.length
  ranged_external {place : Nat} {mechanism : Mechanism α} {values : List α} {reported : List Nat}
    (hmechanism : group.externals[place]? = some mechanism)
    (hvalues : externals[place]? = some values) (hreported : externalAxes[place]? = some reported) :
    Ranged mechanism.joints
      (slice (externalOffset group.externals place) mechanism.axisCount target.external) values
      reported
  planes_eq : solution.planes = group.posed parent target.tool.tcp arm externals
  faults_eq : solution.faults =
    (group.posedPosition target parent solution.frame previous externals).faults ++
      axes.map .axisOutOfRange ++
      (List.zipWith (fun mechanism reported ↦ reported.map (.mechanismOutOfRange · mechanism.name))
        group.externals externalAxes).flatten
  isRange_solver (fault : Fault) (h : fault ∈ (group.posedPosition target parent solution.frame
    previous externals).faults) : fault.isRange = false

section Solved

variable (group : Group α) (target : Target α) (parent : Pose α)

/-- The axis values that the mechanisms of the group return. -/
def solvedExternals : List (List α) :=
  (group.externals.mapIdx (group.solvedMechanism target parent)).map Solution.joints

/-- The axes of each mechanism of the group whose given value is out of range. -/
def reportedExternals : List (List Nat) :=
  group.externals.mapIdx fun place mechanism ↦
    outOfRange mechanism.joints
      (slice (externalOffset group.externals place) mechanism.axisCount target.external)

theorem joints_solvedMechanism (place : Nat) (mechanism : Mechanism α) :
    (group.solvedMechanism target parent place mechanism).joints = limitAll mechanism.joints
      (slice (externalOffset group.externals place) mechanism.axisCount target.external) := by
  rw [solvedMechanism, Mechanism.solve, resize_eq_self (length_slice _ _ _)]

theorem faults_solvedMechanism (place : Nat) (mechanism : Mechanism α) :
    (group.solvedMechanism target parent place mechanism).faults =
      (outOfRange mechanism.joints (slice (externalOffset group.externals place)
        mechanism.axisCount target.external)).map (.mechanismOutOfRange · mechanism.name) := by
  rw [solvedMechanism, Mechanism.solve, resize_eq_self (length_slice _ _ _)]

theorem length_solvedExternals :
    (group.solvedExternals target parent).length = group.externals.length := by
  rw [solvedExternals, List.length_map, List.length_mapIdx]

theorem flatten_solvedExternals : (group.solvedExternals target parent).flatten =
    (solveMechanisms parent group.externals target.external).flatMap Solution.joints := by
  rw [solveMechanisms_eq, List.flatMap_def, solvedExternals]

variable {group} in
/-- Each mechanism keeps its ranges with its own slice of the external values. -/
theorem ranged_solvedExternals [TolerantScalar α] {place : Nat} {mechanism : Mechanism α}
    {values : List α} {reported : List Nat} (hmechanism : group.externals[place]? = some mechanism)
    (hvalues : (group.solvedExternals target parent)[place]? = some values)
    (hreported : (group.reportedExternals target)[place]? = some reported) :
    Ranged mechanism.joints
      (slice (externalOffset group.externals place) mechanism.axisCount target.external) values
      reported := by
  rw [solvedExternals, List.getElem?_map, List.getElem?_mapIdx, hmechanism, Option.map_some,
    Option.map_some, joints_solvedMechanism] at hvalues
  rw [reportedExternals, List.getElem?_mapIdx, hmechanism, Option.map_some] at hreported
  obtain rfl := Option.some.inj hvalues
  obtain rfl := Option.some.inj hreported
  exact ranged_limitAll _ _

theorem posedMechanisms_solved : group.posedMechanisms parent (group.solvedExternals target parent) =
    (solveMechanisms parent group.externals target.external).map Solution.planes := by
  refine List.ext_getElem? fun place ↦ ?_
  rw [solveMechanisms_eq, posedMechanisms, solvedExternals, List.getElem?_zipWith]
  simp only [List.getElem?_map, List.getElem?_mapIdx]
  cases group.externals[place]? <;> rfl

theorem posedBase_solved : group.posedBase parent (group.solvedExternals target parent) =
    armParent parent group.externals
      ((solveMechanisms parent group.externals target.external).map Solution.tcp) *
        group.arm.base := by
  rw [posedBase, posedMechanisms_solved, List.map_map]
  rfl

theorem flatten_reportedExternals :
    (List.zipWith (fun mechanism reported ↦ reported.map (.mechanismOutOfRange · mechanism.name))
        group.externals (group.reportedExternals target)).flatten =
      (solveMechanisms parent group.externals target.external).flatMap Solution.faults := by
  rw [List.flatMap_def]
  congr 1
  refine List.ext_getElem? fun place ↦ ?_
  rw [solveMechanisms_eq, reportedExternals, List.getElem?_zipWith]
  simp only [List.getElem?_map, List.getElem?_mapIdx]
  cases group.externals[place]? with
  | none => rfl
  | some mechanism => exact congrArg some (group.faults_solvedMechanism target parent _ _).symm

theorem exists_keepsRanges_solve [TolerantScalar α] (index : Nat) (coupled : Option (Pose α))
    (previous : Option (List α)) : ∃ arm externals axes externalAxes,
      group.KeepsRanges target parent previous
        (group.solve index target coupled previous parent) arm externals axes externalAxes := by
  let solution := group.solve index target coupled previous parent
  let externals := group.solvedExternals target parent
  let position := group.posedPosition target parent solution.frame previous externals
  let base := armParent parent group.externals
    ((solveMechanisms parent group.externals target.external).map Solution.tcp) * group.arm.base
  have hbase : group.posedBase parent externals = base := group.posedBase_solved target parent
  have hposition : position = group.arm.position target base solution.frame
      (previous.map (·.take group.arm.axisCount)) := by
    rw [← hbase]
    rfl
  refine ⟨limitAll group.arm.joints position.joints, externals,
    outOfRange group.arm.joints position.joints, group.reportedExternals target, ?_⟩
  exact
    { joints_eq := by
        rw [flatten_solvedExternals, hposition]
        rfl
      ranged_arm := ranged_limitAll _ _
      length_externals := group.length_solvedExternals target parent
      length_externalAxes := List.length_mapIdx
      ranged_external := ranged_solvedExternals target parent
      planes_eq := by
        rw [posed, hbase, posedMechanisms_solved, hposition, ← List.flatMap_def]
        rfl
      faults_eq := by
        rw [flatten_reportedExternals]
        show _ = position.faults ++ _ ++ _
        rw [hposition]
        rfl
      isRange_solver := fun _ h ↦ Arm.isRange_of_mem_faults_position h }

end Solved

end Group

/-! ### Cells -/

/-- Every solution of a solved cell has its axis values in range, the planes of the values that it
returns, and one fault for each axis value that was given out of range, behind those of the
solver. -/
theorem Cell.solve_keeps_ranges [TolerantScalar α] {cell : Cell α} {targets : List (Target α)}
    {previous : Option (List (List α))} {solutions : List (Solution α)}
    (hsolve : cell.solve targets previous = .ok solutions) :
    solutions.length = cell.groups.length ∧
      ∀ (index : Nat) (group : Group α), cell.groups[index]? = some group →
        ∃ target solution arm externals axes externalAxes, targets[index]? = some target ∧
          solutions[index]? = some solution ∧
          group.KeepsRanges target cell.base (previous.bind (·[index]?)) solution arm externals axes
            externalAxes := by
  obtain ⟨hcount, hframes⟩ := checked_of_solve hsolve
  refine ⟨((solve_eq_ok_iff cell hcount hframes previous).mp hsolve).1, fun index group hgroup ↦ ?_⟩
  obtain ⟨target, coupled, htarget, hsolution⟩ := exists_solve_of_group hsolve hgroup
  obtain ⟨arm, externals, axes, externalAxes, hkeeps⟩ :=
    group.exists_keepsRanges_solve target cell.base index coupled (previous.bind (·[index]?))
  exact ⟨target, _, arm, externals, axes, externalAxes, htarget, hsolution, hkeeps⟩

/-- The rail is one millimetre long and is asked to go to two. -/
noncomputable def overrunning : List (Target ℝ) :=
  [(Target.ofGoal (.joints [])).withExternal [Scalar.two], Target.ofGoal (.joints [])]

theorem exists_solve_overrunning :
    ∃ solutions, workshop.solve overrunning none = .ok solutions := by
  refine Cell.exists_solve_of_not_hasLoop workshop rfl rfl none ?_
  refine Cell.not_hasLoop_of_lt fun group carrier ⟨target, htarget, hcoupled, _⟩ ↦ ?_
  match group, htarget with
  | 0, htarget => obtain rfl := Option.some.inj htarget; cases hcoupled
  | 1, htarget => obtain rfl := Option.some.inj htarget; cases hcoupled

theorem Cell.solve_keeps_ranges_overrunning :
    ∃ solutions solution arm rail table, workshop.solve overrunning none = .ok solutions ∧
      solutions[0]? = some solution ∧ solution.joints = arm ++ rail ++ table ∧
      (∀ value, rail[0]? = some value →
        (Joint.prismatic 0 1 1 : Joint ℝ).isInRange value = true) ∧
      .mechanismOutOfRange 0 "Rail" ∈ solution.faults := by
  obtain ⟨solutions, hsolve⟩ := exists_solve_overrunning
  obtain ⟨_, hall⟩ := solve_keeps_ranges hsolve
  obtain ⟨target, solution, arm, externals, axes, externalAxes, htarget, hsolution, hkeeps⟩ :=
    hall 0 _ rfl
  obtain rfl := Option.some.inj htarget
  have hcount : externals.length = 2 := hkeeps.length_externals
  have hreports : externalAxes.length = 2 := hkeeps.length_externalAxes
  obtain ⟨rail, table, rfl⟩ := List.length_eq_two.mp hcount
  obtain ⟨reported, others, rfl⟩ := List.length_eq_two.mp hreports
  have hmechanism : ([.floorTrack "Rail" 1 1, .turntable "Table" 1 0] : List (Mechanism ℝ))[0]? =
      some (.floorTrack "Rail" 1 1) := rfl
  have hrail := hkeeps.ranged_external hmechanism List.getElem?_cons_zero List.getElem?_cons_zero
  have hpast : (Joint.prismatic 0 1 1 : Joint ℝ).isInRange Scalar.two = false := by
    norm_num [Joint.isInRange, Joint.prismatic, Joint.tolerance, Exact.two_eq]
  refine ⟨solutions, solution, arm, rail, table, hsolve, hsolution, ?_, fun value hvalue ↦ ?_, ?_⟩
  · rw [hkeeps.joints_eq]
    simp only [List.flatten_cons, List.flatten_nil, List.append_nil, List.append_assoc]
  · exact hrail.isInRange rfl hvalue zero_le_one
  · have hreported : 0 ∈ reported := hrail.mem_reported.mpr ⟨_, _, rfl, rfl, hpast⟩
    rw [hkeeps.faults_eq]
    exact List.mem_append_right _ (List.mem_append_left _ (List.mem_map_of_mem hreported))

end Toolpath
