import Toolpath.Proofs.Reaching
import Toolpath.Proofs.Coupling.Resolution
import Toolpath.Arm.Preset
import Toolpath.Mechanism.Preset

/-!
Where the axis values and the planes of a solved cell stand. The counts and places that a group
announces (`Group.jointCount`, `Group.planeCount`, `Group.mechanismPlane?`, `Group.flangePlane`) are
computed apart from the lists that solving builds. For groups of constructed arms and mechanisms
they agree with them (`Group.LaidOut`), however many external values and joint values a target has
and whether the step is free of faults or not; so do the places where the planes of each group start
among the planes of all groups (`Cell.solve_lays_out`).
-/

set_option autoImplicit false
set_option relaxedAutoImplicit false

namespace Toolpath

variable {α : Type} [Scalar α]

/-! ### Constructed cells -/

/-- An arm as its constructor gives it. -/
def Arm.Built (arm : Arm α) : Prop :=
  ∃ name manufacturer topology joints base payload,
    Arm.build name manufacturer topology joints base payload = .ok arm

/-- A mechanism as one of the constructors gives it. -/
inductive Mechanism.Built (mechanism : Mechanism α) : Prop where
  | track (name : String) (joints : List (Joint α)) (base : Pose α) (movesRobot : Bool)
      (h : buildTrack name joints base movesRobot = .ok mechanism)
  | positioner (name : String) (joints : List (Joint α)) (axes : List (Pose α)) (base : Pose α)
      (movesRobot : Bool) (h : buildPositioner name joints axes base movesRobot = .ok mechanism)
  | custom (name : String) (joints : List (Joint α)) (axes : List (Pose α)) (base : Pose α)
      (movesRobot : Bool) (h : buildCustom name joints axes base movesRobot = .ok mechanism)

structure Group.Built (group : Group α) : Prop where
  arm : group.arm.Built
  externals : ∀ mechanism ∈ group.externals, mechanism.Built

theorem Arm.Built.length_joints {arm : Arm α} (h : arm.Built) :
    arm.joints.length = arm.axisCount := by
  obtain ⟨name, manufacturer, topology, joints, base, payload, hbuild⟩ := h
  rw [build] at hbuild
  split_ifs at hbuild with hcount
  obtain rfl := Except.ok.inj hbuild
  cases topology <;> exact hcount

omit [Scalar α] in
theorem Mechanism.Built.complete {mechanism : Mechanism α} (h : mechanism.Built) :
    mechanism.Complete := by
  cases h with
  | track _ _ _ _ h => exact complete_of_buildTrack h
  | positioner _ _ _ _ _ h => exact complete_of_buildPositioner h
  | custom _ _ _ _ _ h => exact complete_of_buildCustom h

theorem Arm.built_preset (name : String) (manufacturer : Manufacturer) {topology : Topology}
    {joints : List (Joint α)} (h : joints.length = topology.axisCount) (payload : α) :
    (preset name manufacturer topology joints payload).Built :=
  ⟨name, manufacturer, topology, joints, 1, payload, if_pos h⟩

theorem Mechanism.built_floorTrack (name : String) (length maxSpeed : α) :
    (floorTrack name length maxSpeed).Built :=
  .track name [.prismatic 0 length maxSpeed] 1 true rfl

theorem Mechanism.built_turntable (name : String) (base : Pose α) (height : α) :
    (turntable name base height).Built :=
  .positioner name [.revoluteDegrees 0 0 (-360.0) 360.0 120.0] [.translation 0 0 height] base false
    rfl

theorem Group.Built.complete {group : Group α} (h : group.Built) :
    ∀ mechanism ∈ group.externals, mechanism.Complete :=
  fun mechanism hmechanism ↦ (h.externals mechanism hmechanism).complete

/-! ### The flange of an arm -/

omit [Scalar α] in
theorem Solver.axisCount_pos (solver : Solver α) : 0 < solver.axisCount := by
  rcases solver with arm | arm | arm <;> exact Nat.succ_pos _

/-- The flange is the last plane of an arm, behind its base and one plane for each other axis. -/
theorem Arm.exists_flange_solve {arm : Arm α} {target : Target α} {frame parent : Pose α}
    {previous : Option (List α)}
    (hlength : (arm.solve target frame previous parent).joints.length = arm.axisCount) :
    ∃ before flange,
      (arm.solver.forward (arm.solve target frame previous parent).joints).getLast? = some flange ∧
      (arm.solve target frame previous parent).planes = before ++ [parent * arm.base * flange] ∧
      before.length = arm.axisCount := by
  have hcount := arm.solver.length_forward hlength
  have hplanes : (arm.solve target frame previous parent).planes = parent * arm.base ::
      (arm.solver.forward (arm.solve target frame previous parent).joints).map
        (parent * arm.base * ·) := rfl
  have hsome : arm.solver.forward (arm.solve target frame previous parent).joints ≠ [] :=
    List.ne_nil_of_length_pos (hcount ▸ arm.solver.axisCount_pos)
  obtain ⟨frames, flange, hframes⟩ := (List.eq_nil_or_concat _).resolve_left hsome
  rw [List.concat_eq_append] at hframes
  rw [hframes, List.length_append] at hcount
  refine ⟨parent * arm.base :: frames.map (parent * arm.base * ·), flange, ?_, ?_, ?_⟩
  · rw [hframes, List.getLast?_concat]
  · rw [hplanes, hframes, List.map_append, List.map_singleton, List.cons_append]
  · rw [List.length_cons, List.length_map]
    exact hcount

/-! ### Slices of axis values -/

/-- The values at the places from `start` on, missing ones being zero. -/
def slice (start count : Nat) (values : List α) : List α :=
  (List.range count).map fun place ↦ values.getD (start + place) 0

theorem length_slice (start count : Nat) (values : List α) :
    (slice start count values).length = count := by
  rw [slice, List.length_map, List.length_range]

theorem slice_drop (start skipped count : Nat) (values : List α) :
    slice start count (values.drop skipped) = slice (skipped + start) count values := by
  simp only [slice, List.getD_eq_getElem?_getD, List.getElem?_drop, Nat.add_assoc]

theorem slice_append (start first second : Nat) (values : List α) :
    slice start (first + second) values =
      slice start first values ++ slice (start + first) second values := by
  simp only [slice, List.range_add, List.map_append, List.map_map, Function.comp_def,
    Nat.add_assoc]

theorem resize_eq_slice (count : Nat) (values : List α) :
    resize count values = slice 0 count values := by
  refine List.ext_getElem (by rw [length_resize, length_slice]) fun place hresized _ ↦ ?_
  rw [length_resize] at hresized
  by_cases hplace : place < values.length
  · simp [resize, List.rightpad, slice, hplace, hresized]
  · simp [resize, List.rightpad, slice, List.getElem_append, hplace]

/-- Rows that fit their axes are limited one after another. -/
theorem limitAll_append {joints : List (Joint α)} {values : List α}
    (h : values.length = joints.length) (others : List (Joint α)) (more : List α) :
    limitAll (joints ++ others) (values ++ more) =
      limitAll joints values ++ limitAll others more := by
  induction joints generalizing values with
  | nil =>
    obtain rfl := List.length_eq_zero_iff.mp h
    rfl
  | cons joint joints ih =>
    obtain ⟨value, values, rfl⟩ := List.exists_cons_of_length_eq_add_one h
    rw [List.cons_append, List.cons_append, limitAll, limitAll, ih (Nat.succ.inj h),
      List.cons_append]

/-! ### Mechanisms and their slices -/

theorem Mechanism.solve_take_drop (mechanism : Mechanism α) (start : Nat) (values : List α)
    (parent : Pose α) :
    mechanism.solve ((values.drop start).take mechanism.axisCount) parent =
      mechanism.solve (slice start mechanism.axisCount values) parent := by
  have hgiven : resize mechanism.axisCount ((values.drop start).take mechanism.axisCount) =
      resize mechanism.axisCount (slice start mechanism.axisCount values) := by
    rw [resize_eq_self (length_slice _ _ _), resize, List.take_take, Nat.min_self, ← resize,
      resize_eq_slice, slice_drop, Nat.add_zero]
  rw [solve, hgiven, ← solve]

namespace Group

/-- How many external values the mechanisms before a place take. -/
def externalOffset (mechanisms : List (Mechanism α)) (place : Nat) : Nat :=
  ((mechanisms.take place).map Mechanism.axisCount).foldr (· + ·) 0

/-- Every mechanism is solved with its own slice of the external values. -/
theorem getElem?_solveMechanisms (parent : Pose α) (mechanisms : List (Mechanism α)) :
    ∀ (values : List α) (place : Nat), (solveMechanisms parent mechanisms values)[place]? =
      mechanisms[place]?.map fun mechanism ↦ mechanism.solve
        (slice (externalOffset mechanisms place) mechanism.axisCount values) parent := by
  induction mechanisms with
  | nil => intro values place; rfl
  | cons mechanism rest ih =>
    intro values place
    rw [solveMechanisms]
    cases place with
    | zero =>
      have hown := mechanism.solve_take_drop 0 values parent
      rw [List.drop_zero] at hown
      rw [List.getElem?_cons_zero, List.getElem?_cons_zero, Option.map_some, hown]
      rfl
    | succ place =>
      rw [List.getElem?_cons_succ, List.getElem?_cons_succ, ih]
      simp only [slice_drop]
      rfl

/-- The axis values of the mechanisms are the external values in their order, each limited to the
range of its axis. -/
theorem flatMap_joints_solveMechanisms (parent : Pose α) (mechanisms : List (Mechanism α)) :
    ∀ values : List α, (solveMechanisms parent mechanisms values).flatMap Solution.joints =
      limitAll (mechanisms.flatMap Mechanism.joints)
        (slice 0 ((mechanisms.map Mechanism.axisCount).foldr (· + ·) 0) values) := by
  induction mechanisms with
  | nil => intro values; rfl
  | cons mechanism rest ih =>
    intro values
    have hown : (mechanism.solve (values.take mechanism.axisCount) parent).joints =
        limitAll mechanism.joints (slice 0 mechanism.axisCount values) := by
      show limitAll mechanism.joints (resize mechanism.axisCount _) = _
      rw [resize, List.take_take, Nat.min_self, ← resize, resize_eq_slice]
    rw [solveMechanisms, List.flatMap_cons, List.flatMap_cons, List.map_cons, List.foldr_cons,
      slice_append, limitAll_append (length_slice _ mechanism.axisCount _), hown, ih, slice_drop,
      Nat.zero_add, Nat.add_zero]

theorem length_planes_solveMechanisms (parent : Pose α) {mechanisms : List (Mechanism α)}
    (hcomplete : ∀ mechanism ∈ mechanisms, mechanism.Complete) :
    ∀ values : List α, ((solveMechanisms parent mechanisms values).flatMap Solution.planes).length =
      mechanismPlaneCount mechanisms := by
  induction mechanisms with
  | nil => intro values; rfl
  | cons mechanism rest ih =>
    rw [List.forall_mem_cons] at hcomplete
    intro values
    rw [solveMechanisms, List.flatMap_cons, List.length_append,
      Mechanism.length_planes_solve hcomplete.1, ih hcomplete.2, mechanismPlaneCount_cons]

/-! ### The layout of a group -/

/-- A mechanism of the group solved with its own slice of the external values. -/
def solvedMechanism (group : Group α) (target : Target α) (parent : Pose α) (place : Nat)
    (mechanism : Mechanism α) : Solution α :=
  mechanism.solve (slice (externalOffset group.externals place) mechanism.axisCount
    target.external) parent

/-- What the arm of the group is mounted on. -/
def armMount (group : Group α) (target : Target α) (parent : Pose α) : Pose α :=
  armParent parent group.externals
    ((group.externals.mapIdx (group.solvedMechanism target parent)).map Solution.tcp)

theorem solveMechanisms_eq (group : Group α) (target : Target α) (parent : Pose α) :
    solveMechanisms parent group.externals target.external =
      group.externals.mapIdx (group.solvedMechanism target parent) := by
  refine List.ext_getElem? fun place ↦ ?_
  rw [getElem?_solveMechanisms, List.getElem?_mapIdx]
  rfl

theorem armMount_eq (group : Group α) (target : Target α) (parent : Pose α) :
    group.armMount target parent = armParent parent group.externals
      ((solveMechanisms parent group.externals target.external).map Solution.tcp) := by
  rw [armMount, solveMechanisms_eq]

/-- The axis values of the arm before they are limited to their ranges. -/
def armValues (group : Group α) (target : Target α) (parent : Pose α) (previous : Option (List α))
    (frame : Pose α) : List α :=
  (group.arm.position target (group.armMount target parent * group.arm.base) frame
    (previous.map (·.take group.arm.axisCount))).joints

/-- Where a solution of the group has its axis values and its planes: as many as the group counts,
the axis values in the order of its axes, and at each announced place the plane that is promised
there. -/
structure LaidOut (group : Group α) (target : Target α) (parent : Pose α)
    (previous : Option (List α)) (solution : Solution α) : Prop where
  length_axes : group.joints.length = group.jointCount
  length_joints : solution.joints.length = group.jointCount
  length_planes : solution.planes.length = group.planeCount
  length_armValues :
    (group.armValues target parent previous solution.frame).length = group.arm.axisCount
  armValues_eq (values : List α) (h : target.goal = .joints values) :
    group.armValues target parent previous solution.frame = slice 0 group.arm.axisCount values
  joints_eq : solution.joints = limitAll group.joints
    (group.armValues target parent previous solution.frame ++
      slice 0 group.externalCount target.external)
  mechanism (place : Nat) (mechanism : Mechanism α)
    (h : group.externals[place]? = some mechanism) : ∃ index plane,
      group.mechanismPlane? place = some index ∧ solution.planes[index]? = some plane ∧
        (group.solvedMechanism target parent place mechanism).planes.getLast? = some plane
  flange : ∃ flange,
    (group.arm.solver.forward (solution.joints.take group.arm.axisCount)).getLast? = some flange ∧
      solution.planes[group.flangePlane]? =
        some (group.armMount target parent * group.arm.base * flange) ∧
      solution.planes[group.flangePlane + 1]? =
        some (group.armMount target parent * group.arm.base * flange * target.tool.tcp)

theorem Built.length_joints {group : Group α} (h : group.Built) :
    group.joints.length = group.jointCount := by
  have hexternals : (group.externals.flatMap Mechanism.joints).length = group.externalCount :=
    List.length_flatMap
  rw [joints, List.length_append, h.arm.length_joints, hexternals, jointCount]

variable {group : Group α} {index : Nat} {target : Target α} {coupled : Option (Pose α)}
  {previous : Option (List α)} {parent : Pose α}

theorem joints_solve_eq_limitAll (hbuilt : group.Built)
    (hlength : (group.armValues target parent previous
      (group.solve index target coupled previous parent).frame).length = group.arm.axisCount) :
    (group.solve index target coupled previous parent).joints = limitAll group.joints
      (group.armValues target parent previous
          (group.solve index target coupled previous parent).frame ++
        slice 0 group.externalCount target.external) := by
  rw [joints, limitAll_append (hlength.trans hbuilt.arm.length_joints.symm), externalCount,
    ← flatMap_joints_solveMechanisms parent, armValues, armMount_eq]
  rfl

/-- The planes of the arm stand behind those of the mechanisms, the last ones being flange and
tool. -/
theorem exists_planes_solve (hbuilt : group.Built)
    (hlength : (group.armValues target parent previous
      (group.solve index target coupled previous parent).frame).length = group.arm.axisCount) :
    ∃ before flange, (group.arm.solver.forward ((group.solve index target coupled previous
        parent).joints.take group.arm.axisCount)).getLast? = some flange ∧
      (group.solve index target coupled previous parent).planes =
        before ++ [group.armMount target parent * group.arm.base * flange,
          group.armMount target parent * group.arm.base * flange * target.tool.tcp] ∧
      before.length = mechanismPlaneCount group.externals + group.arm.axisCount := by
  let arm := group.arm.solve target (group.solve index target coupled previous parent).frame
    (previous.map (·.take group.arm.axisCount)) (group.armMount target parent)
  let mechanisms := solveMechanisms parent group.externals target.external
  have harm : arm.joints.length = group.arm.axisCount := (length_limitAll _ _).trans hlength
  obtain ⟨before, flange, hflange, hplanes, hbefore⟩ := Arm.exists_flange_solve harm
  have hjoints : (group.solve index target coupled previous parent).joints =
      arm.joints ++ mechanisms.flatMap Solution.joints := by
    show _ = (group.arm.solve _ _ _ (group.armMount target parent)).joints ++ _
    rw [armMount_eq]
    rfl
  have hrow : (group.solve index target coupled previous parent).planes =
      mechanisms.flatMap Solution.planes ++ arm.planes ++ [arm.tcp * target.tool.tcp] := by
    show _ = _ ++ (group.arm.solve _ _ _ (group.armMount target parent)).planes ++
      [(group.arm.solve _ _ _ (group.armMount target parent)).tcp * _]
    rw [armMount_eq]
    rfl
  refine ⟨mechanisms.flatMap Solution.planes ++ before, flange, ?_, ?_, ?_⟩
  · rw [hjoints, List.take_left' harm, hflange]
  · rw [hrow, Solution.tcp, hplanes, List.getLastD_concat]
    simp only [List.append_assoc, List.cons_append, List.nil_append]
  · rw [List.length_append, length_planes_solveMechanisms parent hbuilt.complete, hbefore]

theorem laidOut_solve [FiniteAngles α] (hbuilt : group.Built) (index : Nat) (target : Target α)
    (coupled : Option (Pose α)) (parent : Pose α)
    (hprevious : ∀ row ∈ previous, ∀ value ∈ row, Scalar.isFinite value = true) :
    group.LaidOut target parent previous
      (group.solve index target coupled previous parent) := by
  have hstart : ∀ row ∈ previous.map (·.take group.arm.axisCount), ∀ value ∈ row,
      Scalar.isFinite value = true := by
    intro row hrow value hvalue
    obtain ⟨whole, hwhole, rfl⟩ := Option.mem_map.mp hrow
    exact hprevious whole hwhole value (List.mem_of_mem_take hvalue)
  have hlength := group.arm.length_position target (group.armMount target parent * group.arm.base)
    (group.solve index target coupled previous parent).frame hstart
  have hjoints := joints_solve_eq_limitAll hbuilt hlength
  obtain ⟨before, flange, hflange, hplanes, hbefore⟩ := exists_planes_solve hbuilt hlength
  have hplace : group.flangePlane = before.length := by
    rw [flangePlane, planeCount, Nat.add_sub_cancel, hbefore]
  exact
    { length_axes := hbuilt.length_joints
      length_joints := by
        rw [hjoints, length_limitAll, List.length_append, length_slice, armValues, hlength,
          jointCount]
      length_planes := by
        rw [hplanes, List.length_append, hbefore, planeCount]
        rfl
      length_armValues := hlength
      armValues_eq := fun values hgoal ↦ by
        rw [armValues, Arm.position, hgoal, ← resize_eq_slice]
        exact Arm.joints_place _ _
      joints_eq := hjoints
      mechanism := fun place mechanism hmechanism ↦ by
        have hmoved := getElem?_solveMechanisms parent group.externals target.external place
        rw [hmechanism, Option.map_some] at hmoved
        obtain ⟨plane, hindex, hplane⟩ := Option.bind_eq_some_iff.mp
          (mechanismTip?_solve hbuilt.complete index target coupled previous parent hmoved)
        exact ⟨plane, _, hindex, hplane, mechanism.planes_getLast? _ _⟩
      flange := ⟨flange, hflange, by rw [hplanes, hplace]; simp, by rw [hplanes, hplace]; simp⟩ }

end Group

/-! ### The layout of a cell -/

/-- The rows of a table stand one after the other, each where the lengths of the rows before it add
up to. -/
theorem Cell.exists_offset {β : Type} {row : List β} :
    ∀ {rows : List (List β)} {place : Nat} (start : Nat), rows[place]? = some row →
      ∃ offset, (offsetsFrom start (rows.map List.length))[place]? = some (start + offset) ∧
        (rows.flatten.drop offset).take row.length = row := by
  intro rows
  induction rows with
  | nil => intro place start h; cases h
  | cons first rest ih =>
    intro place start h
    rw [List.map_cons, offsetsFrom, List.flatten_cons]
    cases place with
    | zero =>
      obtain rfl := Option.some.inj h
      exact ⟨0, rfl, List.take_left⟩
    | succ place =>
      obtain ⟨offset, hoffset, hrow⟩ := ih (start + first.length) h
      refine ⟨first.length + offset, ?_, ?_⟩
      · rw [List.getElem?_cons_succ, hoffset, Nat.add_assoc]
      · rw [List.drop_length_add_append, hrow]

section Solved

variable [FiniteAngles α] {cell : Cell α} {targets : List (Target α)}
  {previous : Option (List (List α))} {solutions : List (Solution α)}

/-- Each solution is that of its group for its target. -/
theorem Cell.exists_laidOut_of_solve (hbuilt : ∀ group ∈ cell.groups, group.Built)
    (hprevious : ∀ rows ∈ previous, ∀ row ∈ rows, ∀ value ∈ row, Scalar.isFinite value = true)
    (hsolve : cell.solve targets previous = .ok solutions) {index : Nat} {group : Group α}
    (hgroup : cell.groups[index]? = some group) :
    ∃ target solution, targets[index]? = some target ∧ solutions[index]? = some solution ∧
      group.LaidOut target cell.base (previous.bind (·[index]?)) solution := by
  obtain ⟨target, coupled, htarget, hsolution⟩ := exists_solve_of_group hsolve hgroup
  have hrow : ∀ row ∈ previous.bind (·[index]?), ∀ value ∈ row, Scalar.isFinite value = true := by
    intro row hrow
    obtain ⟨rows, hrows, hplace⟩ := Option.bind_eq_some_iff.mp hrow
    exact hprevious rows hrows row (List.mem_of_getElem? hplace)
  have hlaid := Group.laidOut_solve (hbuilt group (List.mem_of_getElem? hgroup)) index target
    coupled cell.base hrow
  exact ⟨target, _, htarget, hsolution, hlaid⟩

theorem Cell.map_planeCount_of_solve (hbuilt : ∀ group ∈ cell.groups, group.Built)
    (hprevious : ∀ rows ∈ previous, ∀ row ∈ rows, ∀ value ∈ row, Scalar.isFinite value = true)
    (hsolve : cell.solve targets previous = .ok solutions) :
    cell.groups.map Group.planeCount = (solutions.map Solution.planes).map List.length := by
  obtain ⟨hcount, hframes⟩ := checked_of_solve hsolve
  have hlength := ((solve_eq_ok_iff cell hcount hframes previous).mp hsolve).1
  refine List.ext_getElem? fun index ↦ ?_
  rw [List.map_map, List.getElem?_map, List.getElem?_map]
  cases hgroup : cell.groups[index]? with
  | none =>
    rw [List.getElem?_eq_none_iff] at hgroup
    rw [List.getElem?_eq_none (hlength ▸ hgroup)]
    rfl
  | some group =>
    obtain ⟨target, solution, _, hsolution, hlaid⟩ :=
      exists_laidOut_of_solve hbuilt hprevious hsolve hgroup
    rw [hsolution, Option.map_some, Option.map_some, Function.comp_apply, hlaid.length_planes]

/-- Every solution of a solved cell has its axis values and its planes where its group announces
them, and the planes of each group start where the cell says among the planes of all groups. -/
theorem Cell.solve_lays_out (hbuilt : ∀ group ∈ cell.groups, group.Built)
    (hprevious : ∀ rows ∈ previous, ∀ row ∈ rows, ∀ value ∈ row, Scalar.isFinite value = true)
    (hsolve : cell.solve targets previous = .ok solutions) :
    solutions.length = cell.groups.length ∧
      ∀ (index : Nat) (group : Group α), cell.groups[index]? = some group →
        ∃ target solution start, targets[index]? = some target ∧
          solutions[index]? = some solution ∧
          group.LaidOut target cell.base (previous.bind (·[index]?)) solution ∧
          cell.planeOffsets[index]? = some start ∧
          ((solutions.flatMap Solution.planes).drop start).take group.planeCount =
            solution.planes := by
  obtain ⟨hcount, hframes⟩ := checked_of_solve hsolve
  refine ⟨((solve_eq_ok_iff cell hcount hframes previous).mp hsolve).1, fun index group hgroup ↦ ?_⟩
  obtain ⟨target, solution, htarget, hsolution, hlaid⟩ :=
    exists_laidOut_of_solve hbuilt hprevious hsolve hgroup
  have hrow : (solutions.map Solution.planes)[index]? = some solution.planes := by
    rw [List.getElem?_map, hsolution, Option.map_some]
  obtain ⟨start, hstart, hplanes⟩ := exists_offset 0 hrow
  rw [Nat.zero_add, ← map_planeCount_of_solve hbuilt hprevious hsolve] at hstart
  rw [← List.flatMap_def, hlaid.length_planes] at hplanes
  exact ⟨target, solution, start, htarget, hsolution, hlaid, hstart, hplanes⟩

end Solved

/-- An arm on a track beside a turntable, and an arm with seven axes that works on the table. -/
noncomputable def workshop : Cell ℝ :=
  ⟨"Workshop", 1, [⟨.irb120, [.floorTrack "Rail" 1 1, .turntable "Table" 1 0]⟩, ⟨.iiwa7, []⟩]⟩

/-- The value of the table is left out, and the second target has too few joint values. -/
noncomputable def workshopTargets : List (Target ℝ) :=
  [(Target.ofGoal (.cartesian 1 none .linear)).withExternal [1],
    { Target.ofGoal (.joints [1]) with frame := ⟨⟨.authored 0, "Plate"⟩, 1, some 0, some 1⟩ }]

theorem built_workshop : ∀ group ∈ workshop.groups, group.Built := by
  refine List.forall_mem_cons.mpr ⟨⟨Arm.built_preset _ _ rfl _, ?_⟩,
    List.forall_mem_singleton.mpr ⟨Arm.built_preset _ _ rfl _, List.forall_mem_nil _⟩⟩
  exact List.forall_mem_cons.mpr ⟨Mechanism.built_floorTrack _ _ _,
    List.forall_mem_singleton.mpr (Mechanism.built_turntable _ _ _)⟩

theorem exists_solve_workshop (previous : Option (List (List ℝ))) :
    ∃ solutions, workshop.solve workshopTargets previous = .ok solutions := by
  refine Cell.exists_solve_of_not_hasLoop workshop rfl rfl previous ?_
  refine Cell.not_hasLoop_of_lt fun group carrier ⟨target, htarget, hcoupled, hne⟩ ↦ ?_
  match group, htarget with
  | 0, htarget => obtain rfl := Option.some.inj htarget; cases hcoupled
  | 1, htarget =>
    obtain rfl := Option.some.inj htarget
    obtain rfl : 0 = carrier := Option.some.inj hcoupled
    exact Nat.zero_lt_one

theorem Cell.solve_lays_out_workshop :
    (∀ group ∈ workshop.groups, group.Built) ∧
    ∃ solutions first second, workshop.solve workshopTargets (some [[0], []]) = .ok solutions ∧
      solutions[0]? = some first ∧ first.joints.length = 8 ∧ first.planes.length = 12 ∧
      solutions[1]? = some second ∧ second.joints.length = 7 ∧
      ((solutions.flatMap Solution.planes).drop 12).take 9 = second.planes := by
  obtain ⟨solutions, hsolve⟩ := exists_solve_workshop (some [[0], []])
  obtain ⟨_, hall⟩ := solve_lays_out built_workshop
    (fun _ _ _ _ _ _ ↦ Exact.isFinite_eq_true _) hsolve
  obtain ⟨_, first, _, _, hfirst, hlaid, _, _⟩ := hall 0 _ rfl
  obtain ⟨_, second, start, _, hsecond, hlaidSecond, hstart, hplanes⟩ := hall 1 _ rfl
  obtain rfl : 12 = start := Option.some.inj hstart
  exact ⟨built_workshop, solutions, first, second, hsolve, hfirst, hlaid.length_joints,
    hlaid.length_planes, hsecond, hlaidSecond.length_joints, hplanes⟩

end Toolpath
