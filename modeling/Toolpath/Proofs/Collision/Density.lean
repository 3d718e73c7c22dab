import Mathlib.Data.List.Range
import Toolpath.Proofs.Collision.Agreement
import Toolpath.Proofs.Exact.Arrival
import Toolpath.Proofs.Exact.JointKeyframes
import Toolpath.Proofs.Exact.Ranges
import Toolpath.Proofs.Playback.Posing
import Toolpath.Proofs.Truncation

/-!
How close the states of a collision check are. Between two keyframes of a program whose groups all
interpolate their axes, no state is passed over: the keyframes stand in their ranges
(`Stages.stationed_keyframe`), and with them every position between (`Step.exists_solve_between`).
So every axis advances by the same share of its way from state to state (`path_eq`). How many states
there are depends on the arm axes alone; the external axes, which move along, advance by no more
than the angular step as long as their own way has no more steps than that
(`compile_sweeps_evenly`).
-/

set_option autoImplicit false
set_option relaxedAutoImplicit false

namespace Toolpath

variable {σ : Type}

/-! ### The states of a sweep -/

namespace CollisionCheck

section States

variable {α : Type} [Scalar α]

/-- The states that the sweep between two keyframes looks at, and the former keyframe before
them. -/
def posed (check : CollisionCheck α σ) (previous next : Step α) : List (List (Solution α)) :=
  previous.solutions :: (check.checkedStates previous next
    (check.settings.divisions check.cell previous next)
    (check.settings.divisions check.cell previous next) 1 previous.joints).map Prod.snd

/-- At the start of a timeline the former keyframe is looked at as well; after that it was the last
state of the sweep before. -/
theorem pair?_eq_findSome?_posed {check : CollisionCheck α σ} {previous next : Step α}
    (hclean : ∀ solution ∈ previous.solutions, solution.faults = []) :
    check.pair? previous next true =
        (check.posed previous next).findSome? (check.collision? next) ∧
      check.pair? previous next false =
        (check.posed previous next).tail.findSome? (check.collision? next) := by
  have hjoints : previous.solutions.map Solution.joints = previous.joints :=
    List.map_map
  constructor
  · rw [pair?, if_pos rfl, scan_eq_findSome?, checkedStates, state?_zero hclean, posed]
    dsimp only
    rw [hjoints, List.findSome?_cons, List.findSome?_cons, List.findSome?_map]
    rfl
  · rw [pair?, if_neg Bool.false_ne_true, scan_eq_findSome?, posed, List.tail_cons,
      List.findSome?_map]
    rfl

/-- The values that an axis of a group has in the posed states. -/
def path (check : CollisionCheck α σ) (previous next : Step α) (index axis : Nat) : List α :=
  (check.posed previous next).filterMap fun state ↦ state[index]?.bind (·.joints[axis]?)

end States

end CollisionCheck

/-! ### Keyframes -/

/-- Every group of the step stands without faults in the ranges of its axes, and the step can be
solved again. -/
structure Step.Stationed (step : Step ℝ) (cell : Cell ℝ) : Prop where
  placeable : cell.Placeable step.targets
  clean : ∀ solution ∈ step.solutions, solution.faults = []
  admits (index : Nat) (group : Group ℝ) (h : cell.groups[index]? = some group) :
    ∃ solution, step.solutions[index]? = some solution ∧ group.Admits solution.joints

theorem Step.SolvedBy.admits {cell : Cell ℝ} {step : Step ℝ} (h : step.SolvedBy cell)
    (hclean : ∀ solution ∈ step.solutions, solution.faults = []) {index : Nat} {group : Group ℝ}
    (hgroup : cell.groups[index]? = some group) :
    ∃ solution, step.solutions[index]? = some solution ∧ group.Admits solution.joints := by
  obtain ⟨targets, previous, hsolve⟩ := h
  obtain ⟨target, coupled, _, hsolution⟩ := Cell.exists_solve_of_group hsolve hgroup
  exact ⟨_, hsolution, Group.admits_solve (hclean _ (List.mem_of_getElem? hsolution))⟩

/-- The keyframes of a program that moves at all are stationed. -/
theorem Stages.stationed_keyframe {cell : Cell ℝ} {toolpaths : List (List (Target ℝ))}
    {stepSize : ℝ} {count : Nat} {first : Step ℝ} {rest : List (Step ℝ)}
    {solutions : List (Solution ℝ)} {prepared : PreparedProgram ℝ} {journey : Journey ℝ}
    (h : Stages cell toolpaths stepSize count first rest solutions prepared journey)
    (hmany : 1 < journey.keyframes.length) {keyframe : Step ℝ}
    (hkeyframe : keyframe ∈ journey.keyframes) : keyframe.Stationed cell := by
  have hclean : keyframe.faults = [] := by
    rcases timeline_motions h.timeline with ⟨-, rfl⟩ | ⟨hfirst, motions, hmotions, rfl⟩
    · exact absurd hmany (lt_irrefl 1)
    · exact h.faults_keyframes hfirst hmotions keyframe hkeyframe
  have hsolutions := Step.faults_eq_nil_iff.mp hclean
  exact ⟨h.placeable_keyframe hkeyframe, hsolutions,
    fun _ _ ↦ (h.solvedBy_keyframe hkeyframe).admits hsolutions⟩

namespace Step

variable {cell : Cell ℝ} {previous next : Step ℝ}

/-- The axis values of all groups at a share of the way between two steps. -/
noncomputable def rowsBetween (previous next : Step ℝ) (part whole : Nat) : List (List ℝ) :=
  List.zipWith (Moment.ofParts part whole).interpolateAll previous.joints next.joints

theorem getElem?_rowsBetween {index : Nat} {start stop : Solution ℝ}
    (hstart : previous.solutions[index]? = some start)
    (hstop : next.solutions[index]? = some stop) (part whole : Nat) :
    (rowsBetween previous next part whole)[index]? =
      some ((Moment.ofParts part whole).interpolateAll start.joints stop.joints) :=
  List.getElem?_zipWith_eq_some.mpr ⟨_, _, getElem?_joints hstart, getElem?_joints hstop, rfl⟩

/-- Between two stations on a motion without straight lines the cell takes the axis values in
between, wherever it is solved from. -/
theorem exists_solve_between (hprevious : previous.Stationed cell) (hnext : next.Stationed cell)
    (hjoint : ∀ target ∈ next.targets, target.isLinear = false) {part whole : Nat}
    (hle : part ≤ whole) (before : Option (List (List ℝ))) :
    ∃ solutions, cell.solve (next.between previous cell (.ofParts part whole)) before =
        .ok solutions ∧ (∀ solution ∈ solutions, solution.faults = []) ∧
      solutions.map Solution.joints = rowsBetween previous next part whole := by
  have hcounts : previous.waypoints.length = next.waypoints.length := by
    rw [← length_targets, ← length_targets, hprevious.placeable.count, hnext.placeable.count]
  have hplaceable := hnext.placeable.congr (couplings_between cell (.ofParts part whole) hcounts)
  obtain ⟨solutions, hsolve⟩ := hplaceable.exists_solve before
  have hreached : ∀ (index : Nat) (solution : Solution ℝ), solutions[index]? = some solution →
      solution.faults = [] ∧ (rowsBetween previous next part whole)[index]? =
        some solution.joints := by
    intro index solution hsolution
    obtain ⟨group, target, _, hgroup, htarget, _⟩ :=
      Cell.exists_solve_of_getElem? hplaceable.count hplaceable.frames hsolve hsolution
    obtain ⟨start, hstart, hstartAdmits⟩ := hprevious.admits index group hgroup
    obtain ⟨stop, hstop, hstopAdmits⟩ := hnext.admits index group hgroup
    have hasks := asks_between hgroup
      (fun given hgiven ↦ hjoint given (List.mem_of_getElem? hgiven)) hstart hstop hstartAdmits
      hstopAdmits hle htarget
    obtain ⟨hjoints, hfaults⟩ := Cell.solve_asked hsolve hgroup htarget hsolution hasks
    exact ⟨hfaults, hjoints ▸ getElem?_rowsBetween hstart hstop part whole⟩
  refine ⟨solutions, hsolve, fun solution hsolution ↦ ?_, List.ext_getElem? fun index ↦ ?_⟩
  · obtain ⟨index, hindex⟩ := List.mem_iff_getElem?.mp hsolution
    exact (hreached index solution hindex).1
  · rw [List.getElem?_map]
    cases hsolution : solutions[index]? with
    | some solution => exact (hreached index solution hsolution).2.symm
    | none =>
      refine (List.getElem?_eq_none ?_).symm
      have hpast := List.getElem?_eq_none_iff.mp hsolution
      rw [(Cell.length_of_solve hsolve).2, ← hnext.placeable.count, length_targets] at hpast
      rw [rowsBetween, List.length_zipWith, joints, joints, List.length_map, List.length_map,
        hcounts, Nat.min_self]
      exact hpast

end Step

/-! ### The way of an axis -/

namespace CollisionCheck

variable {check : CollisionCheck ℝ σ} {previous next : Step ℝ}
  (hprevious : previous.Stationed check.cell) (hnext : next.Stationed check.cell)
  (hjoint : ∀ target ∈ next.targets, target.isLinear = false)

include hprevious hnext hjoint

theorem exists_state? {divisions number : Nat} (hpos : 1 ≤ number) (hle : number ≤ divisions)
    (joints : List (List ℝ)) : ∃ solutions,
      check.state? previous next divisions number joints = some solutions ∧
      solutions.map Solution.joints = Step.rowsBetween previous next number divisions := by
  obtain ⟨solutions, hsolve, hclean, hrows⟩ :=
    Step.exists_solve_between hprevious hnext hjoint hle (some joints)
  refine ⟨solutions, ?_, hrows⟩
  rw [state?, if_neg (Nat.one_le_iff_ne_zero.mp hpos), hsolve]
  exact Option.filter_eq_some_iff.mpr ⟨rfl, List.all_eq_true.mpr fun solution hsolution ↦
    List.isEmpty_iff.mpr (hclean solution hsolution)⟩

/-- No state is passed over. -/
theorem map_joints_checkedStates {divisions count : Nat} :
    ∀ {number : Nat} (joints : List (List ℝ)), 1 ≤ number → number + count ≤ divisions + 1 →
      (check.checkedStates previous next divisions count number joints).map
          (fun state ↦ state.2.map Solution.joints) =
        (List.range' number count).map (Step.rowsBetween previous next · divisions) := by
  induction count with
  | zero => intro number joints _ _; rfl
  | succ count ih =>
    intro number joints hpos hle
    obtain ⟨solutions, hstate, hrows⟩ := exists_state? hprevious hnext hjoint hpos
      (by omega : number ≤ divisions) joints
    rw [checkedStates, hstate]
    dsimp only
    rw [List.map_cons, hrows, ih _ (by omega) (by omega), List.range'_succ, List.map_cons]

omit hjoint in
theorem rowsBetween_zero (divisions : Nat) :
    Step.rowsBetween previous next 0 divisions = previous.joints := by
  refine List.ext_getElem? fun index ↦ ?_
  by_cases hindex : index < check.cell.groups.length
  · have hgroup := List.getElem?_eq_getElem hindex
    obtain ⟨start, hstart, hstartAdmits⟩ := hprevious.admits index _ hgroup
    obtain ⟨stop, hstop, hstopAdmits⟩ := hnext.admits index _ hgroup
    have hlength := hstartAdmits.length.trans hstopAdmits.length.symm
    rw [Step.getElem?_joints hstart, Step.getElem?_rowsBetween hstart hstop,
      (Moment.isStart_ofParts divisions).interpolateAll hlength]
  · have hpast : previous.joints.length ≤ index := by
      rw [Step.joints, List.length_map, ← Step.length_targets, hprevious.placeable.count]
      exact Nat.le_of_not_lt hindex
    rw [List.getElem?_eq_none hpast, List.getElem?_eq_none]
    rw [Step.rowsBetween, List.length_zipWith]
    exact (Nat.min_le_left _ _).trans hpast

theorem map_joints_posed : (check.posed previous next).map (·.map Solution.joints) =
    (List.range (check.settings.divisions check.cell previous next + 1)).map
      (Step.rowsBetween previous next ·
        (check.settings.divisions check.cell previous next)) := by
  have hjoints : previous.solutions.map Solution.joints = previous.joints := List.map_map
  have hstates := map_joints_checkedStates hprevious hnext hjoint previous.joints le_rfl
    (Nat.add_comm 1 (check.settings.divisions check.cell previous next)).le
  rw [posed, List.map_cons, List.map_map, hjoints, List.range_eq_range', List.range'_succ,
    List.map_cons, rowsBetween_zero hprevious hnext]
  exact congrArg _ hstates

variable {index axis : Nat} {start stop : Solution ℝ} {a b : ℝ}

/-- From state to state an axis advances by the same share of its way. -/
theorem path_eq (hstart : previous.solutions[index]? = some start)
    (hstop : next.solutions[index]? = some stop) (ha : start.joints[axis]? = some a)
    (hb : stop.joints[axis]? = some b) (hlength : start.joints.length = stop.joints.length) :
    check.path previous next index axis =
      (List.range (check.settings.divisions check.cell previous next + 1)).map fun number : Nat ↦
        a + (b - a) * ((number : ℝ) / check.settings.divisions check.cell previous next) := by
  have hrows : check.path previous next index axis =
      ((check.posed previous next).map (·.map Solution.joints)).filterMap fun rows ↦
        rows[index]?.bind (·[axis]?) := by
    rw [path, List.filterMap_map]
    refine List.filterMap_congr fun state _ ↦ ?_
    rw [Function.comp_apply, List.getElem?_map, Option.bind_map]
    rfl
  rw [hrows, map_joints_posed hprevious hnext hjoint, List.filterMap_map,
    ← List.filterMap_eq_map]
  refine List.filterMap_congr fun number _ ↦ ?_
  rw [Function.comp_apply, Function.comp_apply, Step.getElem?_rowsBetween hstart hstop,
    Option.bind_some, Moment.interpolateAll_eq_zipWith _ hlength]
  exact List.getElem?_zipWith_eq_some.mpr ⟨a, b, ha, hb, Moment.interpolate_ofParts _ _ _ _⟩

omit hprevious hnext hjoint in
/-- Equal shares of a way are below a bound as soon as the whole way has no more of them. -/
theorem isChain_shares_iff {divisions : Nat} (hpos : 1 ≤ divisions) {bound : ℝ} :
    ((List.range (divisions + 1)).map fun number : Nat ↦
        a + (b - a) * ((number : ℝ) / divisions)).IsChain (fun before after ↦
          |after - before| ≤ bound) ↔ |b - a| ≤ divisions * bound := by
  have hwhole : (0 : ℝ) < divisions := Nat.cast_pos.mpr hpos
  have hshare : ∀ number : Nat, a + (b - a) * (((number + 1 : Nat) : ℝ) / divisions) -
      (a + (b - a) * ((number : ℝ) / divisions)) = (b - a) / divisions := by
    intro number
    push_cast
    field_simp
    ring
  rw [List.isChain_map, List.isChain_range_succ]
  simp only [Nat.succ_eq_add_one, hshare, abs_div, abs_of_pos hwhole, div_le_iff₀ hwhole]
  rw [mul_comm bound]
  exact ⟨fun h ↦ h 0 hpos, fun h _ _ ↦ h⟩

omit hprevious hnext hjoint in
/-- There are enough states for the ways of the arm axes. -/
theorem abs_sub_le_divisions_mul (hstep : 0 < check.settings.angularStep)
    (hstart : previous.solutions[index]? = some start)
    (hstop : next.solutions[index]? = some stop) (ha : start.joints[axis]? = some a)
    (hb : stop.joints[axis]? = some b) (haxis : axis < check.cell.armAxisCount index) :
    |b - a| ≤ check.settings.divisions check.cell previous next * check.settings.angularStep := by
  let turn := Scalar.maximum (((start.joints.zip stop.joints).take
    (check.cell.armAxisCount index)).map fun pair ↦ Scalar.abs (pair.1 - pair.2))
  have hturn : |b - a| ≤ turn := by
    refine Exact.le_maximum (List.mem_map.mpr ⟨(a, b), ?_, ?_⟩)
    · refine List.mem_of_getElem? (i := axis) ?_
      rw [List.getElem?_take_of_lt haxis]
      exact List.getElem?_zip_eq_some.mpr ⟨ha, hb⟩
    · rw [Exact.abs_eq, abs_sub_comm]
  have hcount : Scalar.ceilNat (turn / check.settings.angularStep) ≤
      check.settings.divisions check.cell previous next := by
    rw [Step.solutions, List.getElem?_map, Option.map_eq_some_iff] at hstart hstop
    obtain ⟨before, hbefore, rfl⟩ := hstart
    obtain ⟨waypoint, hwaypoint, rfl⟩ := hstop
    have hpair : ((before, waypoint), index) ∈
        (previous.waypoints.zip next.waypoints).zipIdx :=
      List.mem_zipIdx_iff_getElem?.mpr (List.getElem?_zip_eq_some.mpr ⟨hbefore, hwaypoint⟩)
    refine (foldl_max_le_iff.mp le_rfl).2 _ (List.mem_flatMap.mpr ⟨_, hpair, ?_⟩)
    refine List.mem_cons_of_mem _ (List.mem_singleton.mpr ?_)
    rw [if_pos hstep]
  calc |b - a| ≤ turn := hturn
    _ = turn / check.settings.angularStep * check.settings.angularStep :=
      (div_mul_cancel₀ _ hstep.ne').symm
    _ ≤ _ := mul_le_mul_of_nonneg_right ((Nat.le_ceil _).trans (Nat.cast_le.mpr hcount)) hstep.le

omit hprevious hnext hjoint in
/-- Where no arm moves and tool centre points are let go any way, only the two keyframes are looked
at. -/
theorem divisions_eq_one (hlinear : check.settings.linearStep ≤ 0)
    (hstill : ∀ (index : Nat) (start stop : Solution ℝ), previous.solutions[index]? = some start →
      next.solutions[index]? = some stop → start.joints.take (check.cell.armAxisCount index) =
        stop.joints.take (check.cell.armAxisCount index)) :
    check.settings.divisions check.cell previous next = 1 := by
  refine le_antisymm (foldl_max_le_iff.mpr ⟨le_rfl, fun count hcount ↦ ?_⟩)
    (check.one_le_divisions previous next)
  obtain ⟨⟨⟨before, waypoint⟩, index⟩, hpair, hcount⟩ := List.mem_flatMap.mp hcount
  obtain ⟨hbefore, hwaypoint⟩ :=
    List.getElem?_zip_eq_some.mp (List.mem_zipIdx_iff_getElem?.mp hpair)
  have hrows := hstill index _ _ (Step.getElem?_solutions hbefore)
    (Step.getElem?_solutions hwaypoint)
  have hturn : Scalar.maximum (((before.solution.joints.zip waypoint.solution.joints).take
      (check.cell.armAxisCount index)).map fun pair ↦ Scalar.abs (pair.1 - pair.2)) = 0 := by
    refine le_antisymm (Exact.maximum_le_iff.mpr ⟨le_rfl, List.forall_mem_map.mpr ?_⟩)
      (Exact.maximum_nonneg _)
    intro pair hmem
    rw [List.zip, List.take_zipWith, hrows, List.zipWith_self, List.mem_map] at hmem
    obtain ⟨value, _, rfl⟩ := hmem
    rw [sub_self, Exact.abs_eq, abs_zero]
  dsimp only at hcount
  rw [hturn, if_neg (not_lt.mpr hlinear), zero_div] at hcount
  rcases List.mem_pair.mp hcount with rfl | rfl
  · exact Nat.zero_le 1
  · split_ifs
    · exact (Nat.ceil_zero (R := ℝ)).le.trans (Nat.zero_le 1)
    · exact Nat.zero_le 1

/-- From state to state the axis travels no further than the angular step. -/
def Dense (check : CollisionCheck ℝ σ) (previous next : Step ℝ) (index axis : Nat) : Prop :=
  (check.path previous next index axis).IsChain fun before after ↦
    |after - before| ≤ check.settings.angularStep

end CollisionCheck

/-- The value of an axis of a group. -/
def Step.axisValue? (step : Step ℝ) (index axis : Nat) : Option ℝ :=
  step.solutions[index]?.bind (·.joints[axis]?)

theorem Step.Stationed.exists_axisValue? {step : Step ℝ} {cell : Cell ℝ} (h : step.Stationed cell)
    {index axis : Nat} {group : Group ℝ} (hgroup : cell.groups[index]? = some group)
    (haxis : axis < group.jointCount) : ∃ solution value, step.solutions[index]? = some solution ∧
      solution.joints.length = group.jointCount ∧ solution.joints[axis]? = some value := by
  obtain ⟨solution, hsolution, hadmits⟩ := h.admits index group hgroup
  have hlt : axis < solution.joints.length := hadmits.length.symm ▸ haxis
  exact ⟨solution, _, hsolution, hadmits.length, List.getElem?_eq_getElem hlt⟩

/-- Between two keyframes of a program whose groups all interpolate their axes, the sweep passes no
state over, and from state to state every axis advances by the same share of its way. The arm axes
travel no further than the angular step from one state to the next. An external axis does so if and
only if its own way has no more angular steps than there are states, for their number does not
depend on it. -/
theorem compile_sweeps_evenly {name : String} {cell : Cell ℝ} {toolpaths : List (List (Target ℝ))}
    {stepSize : ℝ} {program : Program ℝ}
    (hcompile : Program.compile name cell toolpaths stepSize = .ok program) {place : Nat}
    {previous next : Step ℝ} (hprevious : program.keyframes[place]? = some previous)
    (hnext : program.keyframes[place + 1]? = some next)
    (hjoint : ∀ target ∈ next.targets, target.isLinear = false) {check : CollisionCheck ℝ σ}
    (hcell : check.cell = program.cell) (hstep : 0 < check.settings.angularStep) :
    (check.pair? previous next true =
        (check.posed previous next).findSome? (check.collision? next) ∧
      check.pair? previous next false =
        (check.posed previous next).tail.findSome? (check.collision? next)) ∧
    ∀ index group, program.cell.groups[index]? = some group → ∀ axis < group.jointCount,
      ∃ start stop, previous.axisValue? index axis = some start ∧
        next.axisValue? index axis = some stop ∧
        check.path previous next index axis =
          ((List.range (check.settings.divisions check.cell previous next + 1)).map
            fun number : Nat ↦ start + (stop - start) *
              ((number : ℝ) / check.settings.divisions check.cell previous next)) ∧
        (check.Dense previous next index axis ↔ |stop - start| ≤
          check.settings.divisions check.cell previous next * check.settings.angularStep) ∧
        (axis < group.arm.axisCount → check.Dense previous next index axis) := by
  obtain ⟨count, first, rest, solutions, prepared, journey, hstages, rfl⟩ :=
    exists_stages_eq hcompile
  obtain rfl : cell = check.cell := hcell.symm
  have hmany : 1 < journey.keyframes.length := by
    obtain ⟨hlt, _⟩ := List.getElem?_eq_some_iff.mp hnext
    exact Nat.lt_of_le_of_lt (Nat.le_add_left 1 place) hlt
  have hstart := hstages.stationed_keyframe hmany (List.mem_of_getElem? hprevious)
  have hstop := hstages.stationed_keyframe hmany (List.mem_of_getElem? hnext)
  refine ⟨CollisionCheck.pair?_eq_findSome?_posed hstart.clean, ?_⟩
  intro index group hgroup axis haxis
  obtain ⟨before, a, hbefore, hbeforeLength, ha⟩ := hstart.exists_axisValue? hgroup haxis
  obtain ⟨after, b, hafter, hafterLength, hb⟩ := hstop.exists_axisValue? hgroup haxis
  have hpath := CollisionCheck.path_eq hstart hstop hjoint hbefore hafter ha hb
    (hbeforeLength.trans hafterLength.symm)
  have hdense : check.Dense previous next index axis ↔ |b - a| ≤
      check.settings.divisions check.cell previous next * check.settings.angularStep := by
    rw [CollisionCheck.Dense, hpath]
    exact CollisionCheck.isChain_shares_iff (check.one_le_divisions previous next)
  refine ⟨a, b, ?_, ?_, hpath, hdense, fun harm ↦ hdense.mpr ?_⟩
  · rw [Step.axisValue?, hbefore, Option.bind_some, ha]
  · rw [Step.axisValue?, hafter, Option.bind_some, hb]
  · refine CollisionCheck.abs_sub_le_divisions_mul hstep hbefore hafter ha hb ?_
    rw [Cell.armAxisCount_of_getElem? hgroup]
    exact harm

/-- An arm beside a turntable. -/
noncomputable def tableside : Group ℝ :=
  ⟨restingArm, [⟨"Table", [.revolute 0 0 (-1) 1 1], 1, false, .positioner [1]⟩]⟩

noncomputable def turntable : Cell ℝ :=
  ⟨"Turntable", 1, [tableside]⟩

/-- The arm rests while the table turns. -/
noncomputable def turned (value : ℝ) : Target ℝ :=
  (standing 0).withExternal [value]

theorem asks_turned {value : ℝ} (h : |value| ≤ 1) :
    (turned value).Asks tableside (List.replicate 6 0 ++ [value]) := by
  refine ⟨rfl, rfl, Group.admits_append (admits_restingArm (by norm_num)) rfl ?_⟩
  simp [tableside, outOfRange, isInRange_unit h]

theorem attainableBy_turned {value : ℝ} (h : |value| ≤ 1) (index : Nat) :
    turntable.AttainableBy index (turned value) := by
  intro group hgroup
  obtain rfl := List.mem_singleton.mp (List.mem_of_getElem? hgroup)
  exact ⟨_, asks_turned h⟩

theorem exists_sweep_turned : ∃ program place previous next,
    Program.compile "Turned" turntable [[turned (-1), turned 1]] 1 = .ok program ∧
    program.cell = turntable ∧
    program.keyframes[place]? = some previous ∧ program.keyframes[place + 1]? = some next ∧
    (∀ target ∈ next.targets, target.isLinear = false) ∧
    previous.StandsOn 0 (List.replicate 6 0 ++ [-1]) ∧
    next.StandsOn 0 (List.replicate 6 0 ++ [1]) := by
  obtain ⟨program, hprogram⟩ := exists_compile_pair "Turned"
    (rfl : turntable.groups.length = 1) (rfl : (turned (-1)).coupling = (none, none))
    (rfl : (turned 1).coupling = (none, none))
  have hstart : |(-1 : ℝ)| ≤ 1 := by norm_num
  have hstop : |(1 : ℝ)| ≤ 1 := by norm_num
  obtain ⟨place, previous, next, hprevious, hnext, hjoint, hsweep⟩ := exists_first_sweep hprogram
    (forall_mem_pair (attainableBy_turned hstart) (attainableBy_turned hstop)) rfl le_rfl
  have hcell : program.cell = turntable := by
    obtain ⟨_, _, _, _, _, _, _, rfl⟩ := exists_stages_eq hprogram
    rfl
  exact ⟨program, place, previous, next, hprogram, hcell, hprevious, hnext, hjoint,
    hsweep 0 tableside _ _ _ _ _ rfl rfl rfl rfl (asks_turned hstart) (asks_turned hstop)⟩

/-- At most a radian from state to state. -/
def byRadians : CollisionSettings ℝ Unit :=
  ⟨[0], [1], none, none, 0, 1⟩

/-- While the arm rests, the table turns further in one go than the angular step. -/
theorem compile_sweeps_evenly_turned : ∃ program place previous next,
    Program.compile "Turned" turntable [[turned (-1), turned 1]] 1 = .ok program ∧
    program.keyframes[place]? = some previous ∧ program.keyframes[place + 1]? = some next ∧
    ∀ contact : Contact ℝ Unit,
      let check : CollisionCheck ℝ Unit := ⟨program.cell, twoShapes, byRadians, contact⟩
      check.path previous next 0 6 = [-1, 1] ∧ check.Dense previous next 0 5 ∧
        ¬ check.Dense previous next 0 6 := by
  obtain ⟨program, place, previous, next, hprogram, hcell, hprevious, hnext, hjoint,
    ⟨start, hstart, hstartJoints⟩, ⟨stop, hstop, hstopJoints⟩⟩ := exists_sweep_turned
  have hgroup : program.cell.groups[0]? = some tableside := by rw [hcell]; rfl
  have hstill : ∀ (index : Nat) (before after : Solution ℝ),
      previous.solutions[index]? = some before → next.solutions[index]? = some after →
        before.joints.take (program.cell.armAxisCount index) =
          after.joints.take (program.cell.armAxisCount index) := by
    intro index before after hbefore hafter
    rw [hcell]
    cases index with
    | zero =>
      obtain rfl := Option.some.inj (hstart.symm.trans hbefore)
      obtain rfl := Option.some.inj (hstop.symm.trans hafter)
      rw [hstartJoints, hstopJoints]
      rfl
    | succ index => rfl
  refine ⟨program, place, previous, next, hprogram, hprevious, hnext, fun contact ↦ ?_⟩
  intro check
  have hunit : check.settings.angularStep = 1 := rfl
  have hdivisions : check.settings.divisions check.cell previous next = 1 :=
    CollisionCheck.divisions_eq_one le_rfl hstill
  obtain ⟨_, hall⟩ := compile_sweeps_evenly hprogram hprevious hnext hjoint
    (rfl : check.cell = program.cell) (hunit ▸ one_pos)
  obtain ⟨_, _, _, _, _, _, harm⟩ := hall 0 tableside hgroup 5 (by decide)
  obtain ⟨a, b, ha, hb, hpath, hdense, _⟩ := hall 0 tableside hgroup 6 (by decide)
  rw [Step.axisValue?, hstart, Option.bind_some, hstartJoints] at ha
  rw [Step.axisValue?, hstop, Option.bind_some, hstopJoints] at hb
  obtain rfl : -1 = a := Option.some.inj ha
  obtain rfl : 1 = b := Option.some.inj hb
  rw [hdivisions] at hpath hdense
  refine ⟨?_, harm (by decide), hdense.not.mpr ?_⟩
  · rw [hpath]
    norm_num [List.range_succ]
  · norm_num [hunit]

end Toolpath
