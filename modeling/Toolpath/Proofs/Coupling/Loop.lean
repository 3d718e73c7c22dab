import Toolpath.Cell.Coupling
import Toolpath.Proofs.Sequencing
import Mathlib.Data.Finset.Card
import Mathlib.Data.Finset.Range
import Mathlib.Logic.Relation

/-!
Groups that wait for each other. `Follows` is the coupling between two groups and `HasLoop` a cycle
of it. Every group follows at most one other group, so that a walk along the couplings (`climb`)
that does not end within as many steps as there are groups has been somewhere twice
(`hasLoop_of_climb`). The solver looks no further than that: it fails on a group exactly where the
walk from it has not ended (`solveAfter_eq_none_iff`).
-/

set_option autoImplicit false
set_option relaxedAutoImplicit false

namespace Toolpath.Cell

variable {α : Type}

/-! ### Couplings -/

/-- The frame of the first group is coupled to the second group, which is another one. -/
def Follows (targets : List (Target α)) (group carrier : Nat) : Prop :=
  ∃ target, targets[group]? = some target ∧ target.frame.coupledGroup = some carrier ∧
    carrier ≠ group

/-- A group waits, through one or more couplings, for itself. -/
def HasLoop (targets : List (Target α)) : Prop :=
  ∃ group, Relation.TransGen (Follows targets) group group

/-- Groups that only follow groups before them do not run in a loop. -/
theorem not_hasLoop_of_lt {targets : List (Target α)}
    (h : ∀ group carrier, Follows targets group carrier → carrier < group) :
    ¬ HasLoop targets := by
  have hlt : ∀ {group last}, Relation.TransGen (Follows targets) group last → last < group := by
    intro group last hwalk
    induction hwalk with
    | single hfollows => exact h _ _ hfollows
    | tail _ hfollows ih => exact (h _ _ hfollows).trans ih
  rintro ⟨group, hloop⟩
  exact Nat.lt_irrefl group (hlt hloop)

theorem carrier?_eq_some_iff {targets : List (Target α)} {group carrier : Nat} :
    carrier? targets group = some carrier ↔ Follows targets group carrier := by
  rw [carrier?, Follows]
  cases targets[group]? with
  | none => simp
  | some target => simp [Option.filter_eq_some_iff]

theorem carrier?_eq_none_iff {targets : List (Target α)} {group : Nat} :
    carrier? targets group = none ↔ ∀ carrier, ¬ Follows targets group carrier := by
  simp only [← carrier?_eq_some_iff, Option.eq_none_iff_forall_ne_some, ne_eq]

/-- The group reached from another one over a number of couplings. -/
def climb (targets : List (Target α)) : Nat → Nat → Option Nat
  | 0, group => some group
  | steps + 1, group => (carrier? targets group).bind (climb targets steps)

theorem climb_add (targets : List (Target α)) (first second group : Nat) :
    climb targets (first + second) group = (climb targets first group).bind (climb targets second) := by
  induction first generalizing group with
  | zero => rw [Nat.zero_add, climb, Option.bind_some]
  | succ first ih =>
    rw [Nat.add_right_comm, climb, climb, Option.bind_assoc]
    exact congrArg _ (funext ih)

theorem transGen_of_climb {targets : List (Target α)} {steps : Nat} :
    ∀ {group last : Nat}, climb targets (steps + 1) group = some last →
      Relation.TransGen (Follows targets) group last := by
  induction steps with
  | zero =>
    intro group last h
    obtain ⟨carrier, hcarrier, hlast⟩ := Option.bind_eq_some_iff.mp h
    obtain rfl : carrier = last := by simpa [climb] using hlast
    exact .single (carrier?_eq_some_iff.mp hcarrier)
  | succ steps ih =>
    intro group last h
    obtain ⟨carrier, hcarrier, hlast⟩ := Option.bind_eq_some_iff.mp h
    exact .head (carrier?_eq_some_iff.mp hcarrier) (ih hlast)

theorem exists_climb_of_transGen {targets : List (Target α)} {group last : Nat}
    (h : Relation.TransGen (Follows targets) group last) :
    ∃ steps, climb targets (steps + 1) group = some last := by
  induction h with
  | single hfollows => exact ⟨0, by rw [climb, carrier?_eq_some_iff.mpr hfollows]; rfl⟩
  | tail _ hfollows ih =>
    obtain ⟨steps, hsteps⟩ := ih
    refine ⟨steps + 1, ?_⟩
    rw [climb_add targets (steps + 1) 1, hsteps, Option.bind_some, climb,
      carrier?_eq_some_iff.mpr hfollows]
    rfl

/-- A walk that has reached a certain length has reached every smaller one. -/
theorem climb_isSome_of_le {targets : List (Target α)} {few many group : Nat} (hle : few ≤ many)
    (h : (climb targets many group).isSome) : (climb targets few group).isSome := by
  obtain ⟨rest, rfl⟩ := Nat.exists_eq_add_of_le hle
  rw [climb_add] at h
  exact Option.isSome_of_isSome_bind h

/-- From a group on a loop the walk never ends. -/
theorem climb_isSome_of_loop {targets : List (Target α)} {group : Nat}
    (h : Relation.TransGen (Follows targets) group group) (steps : Nat) :
    (climb targets steps group).isSome := by
  obtain ⟨round, hround⟩ := exists_climb_of_transGen h
  have hrounds : ∀ count, climb targets (count * (round + 1)) group = some group := by
    intro count
    induction count with
    | zero => rw [Nat.zero_mul, climb]
    | succ count ih => rw [Nat.succ_mul, climb_add, ih, Option.bind_some, hround]
  have hle : steps ≤ steps * (round + 1) := Nat.le_mul_of_pos_right _ (Nat.succ_pos round)
  refine climb_isSome_of_le hle ?_
  rw [hrounds, Option.isSome_some]

/-! ### Frames that can be placed -/

theorem checkFrames_eq_ok_iff {cell : Cell α} {targets : List (Target α)} :
    cell.checkFrames targets = .ok () ↔ ∀ (group : Nat) (target : Target α),
      targets[group]? = some target → cell.checkFrame target.frame group = .ok () := by
  rw [checkFrames, List.forM_eq_forM, forM_eq_ok_iff]
  constructor
  · intro h group target htarget
    exact h (target, group) (List.mem_zipIdx_iff_getElem?.mpr htarget)
  · rintro h ⟨target, group⟩ hmem
    exact h group target (List.mem_zipIdx_iff_getElem?.mp hmem)

theorem lt_of_checkFrame {cell : Cell α} {frame : Frame α} {group coupled : Nat}
    (h : cell.checkFrame frame group = .ok ()) (hcoupled : frame.coupledGroup = some coupled) :
    coupled < cell.groups.length := by
  by_contra hle
  rw [checkFrame, hcoupled] at h
  simp [List.getElem?_eq_none (Nat.le_of_not_lt hle)] at h

theorem Follows.lt {cell : Cell α} {targets : List (Target α)}
    (hframes : cell.checkFrames targets = .ok ()) {group carrier : Nat}
    (h : Follows targets group carrier) : carrier < cell.groups.length := by
  obtain ⟨target, htarget, hcoupled, _⟩ := h
  exact lt_of_checkFrame (checkFrames_eq_ok_iff.mp hframes group target htarget) hcoupled

theorem climb_lt {cell : Cell α} {targets : List (Target α)}
    (hframes : cell.checkFrames targets = .ok ()) {steps : Nat} :
    ∀ {group last : Nat}, group < cell.groups.length → climb targets steps group = some last →
      last < cell.groups.length := by
  induction steps with
  | zero =>
    intro group last hgroup h
    obtain rfl : group = last := by simpa [climb] using h
    exact hgroup
  | succ steps ih =>
    intro group last _ h
    obtain ⟨carrier, hcarrier, hlast⟩ := Option.bind_eq_some_iff.mp h
    exact ih ((carrier?_eq_some_iff.mp hcarrier).lt hframes) hlast

/-- A walk of as many steps as there are groups visits one of them twice, and runs in a loop from
then on. -/
theorem exists_loop_of_climb {cell : Cell α} {targets : List (Target α)}
    (hframes : cell.checkFrames targets = .ok ()) {group : Nat} (hgroup : group < cell.groups.length)
    (h : (climb targets cell.groups.length group).isSome) :
    ∃ steps last, climb targets steps group = some last ∧
      Relation.TransGen (Follows targets) last last := by
  let place (steps : Nat) : Nat := (climb targets steps group).getD 0
  have hplace : ∀ steps ≤ cell.groups.length, climb targets steps group = some (place steps) := by
    intro steps hle
    obtain ⟨last, hlast⟩ := Option.isSome_iff_exists.mp (climb_isSome_of_le hle h)
    simp [place, hlast]
  have hcard : (Finset.range cell.groups.length).card <
      (Finset.range (cell.groups.length + 1)).card := by simp
  have hmaps : ∀ steps ∈ Finset.range (cell.groups.length + 1),
      place steps ∈ Finset.range cell.groups.length := by
    intro steps hsteps
    rw [Finset.mem_range] at hsteps ⊢
    exact climb_lt hframes hgroup (hplace steps (Nat.le_of_lt_succ hsteps))
  obtain ⟨first, hfirst, second, hsecond, hne, heq⟩ :=
    Finset.exists_ne_map_eq_of_card_lt_of_maps_to hcard hmaps
  rw [Finset.mem_range, Nat.lt_succ_iff] at hfirst hsecond
  wlog hlt : first < second generalizing first second
  · exact this second hsecond first hfirst hne.symm heq.symm
      (lt_of_le_of_ne (Nat.le_of_not_lt hlt) hne.symm)
  obtain ⟨between, rfl⟩ := Nat.exists_eq_add_of_lt hlt
  have hreturn := hplace _ hsecond
  rw [Nat.add_assoc, climb_add, hplace first hfirst, Option.bind_some, heq] at hreturn
  exact ⟨first, _, hplace first hfirst, heq ▸ transGen_of_climb hreturn⟩

theorem hasLoop_of_climb {cell : Cell α} {targets : List (Target α)}
    (hframes : cell.checkFrames targets = .ok ()) {group : Nat} (hgroup : group < cell.groups.length)
    (h : (climb targets cell.groups.length group).isSome) : HasLoop targets := by
  obtain ⟨_, last, _, hloop⟩ := exists_loop_of_climb hframes hgroup h
  exact ⟨last, hloop⟩

theorem climb_isSome_of_climb {cell : Cell α} {targets : List (Target α)}
    (hframes : cell.checkFrames targets = .ok ()) {group : Nat} (hgroup : group < cell.groups.length)
    (h : (climb targets cell.groups.length group).isSome) (steps : Nat) :
    (climb targets steps group).isSome := by
  obtain ⟨first, last, hlast, hloop⟩ := exists_loop_of_climb hframes hgroup h
  refine climb_isSome_of_le (Nat.le_add_left steps first) ?_
  rw [climb_add, hlast, Option.bind_some]
  exact climb_isSome_of_loop hloop steps

/-! ### Solving after the carrier -/

variable [Scalar α]

theorem solveGroup_isSome (cell : Cell α) {targets : List (Target α)}
    (hcount : targets.length = cell.groups.length) (previous : Option (List (List α))) {group : Nat}
    (hgroup : group < cell.groups.length) (coupled : Option (Pose α)) :
    (cell.solveGroup targets previous group coupled).isSome := by
  rw [solveGroup, List.getElem?_eq_getElem hgroup, List.getElem?_eq_getElem (hcount ▸ hgroup)]
  rfl

theorem solveAfter_succ_free (cell : Cell α) {targets : List (Target α)}
    (previous : Option (List (List α))) (links : Nat) {group : Nat}
    (hfree : carrier? targets group = none) :
    cell.solveAfter targets previous (links + 1) group =
      cell.solveGroup targets previous group none := by
  rw [solveAfter, hfree]

/-- The solution of a group whose frame is carried by a group with the given solution. -/
def solveCarried (cell : Cell α) (targets : List (Target α)) (previous : Option (List (List α)))
    (group other : Nat) (solution : Solution α) : Option (Solution α) :=
  match cell.groups[other]?, targets[group]? with
  | some carrier, some target =>
    cell.solveGroup targets previous group (carrierPlane? carrier target.frame solution)
  | _, _ => none

theorem solveAfter_succ_carried (cell : Cell α) {targets : List (Target α)}
    (previous : Option (List (List α))) (links : Nat) {group other : Nat}
    (hcarrier : carrier? targets group = some other) :
    cell.solveAfter targets previous (links + 1) group =
      (cell.solveAfter targets previous links other).bind
        (cell.solveCarried targets previous group other) := by
  rw [solveAfter, hcarrier]
  cases hother : cell.groups[other]? with
  | none => cases cell.solveAfter targets previous links other <;> simp [solveCarried, hother]
  | some carrier =>
    cases htarget : targets[group]? with
    | none => cases cell.solveAfter targets previous links other <;> simp [solveCarried, htarget]
    | some target =>
      simp only [hother]
      congr 1
      funext solution
      rw [solveCarried, hother, htarget]

theorem solveCarried_isSome (cell : Cell α) {targets : List (Target α)}
    (hcount : targets.length = cell.groups.length) (hframes : cell.checkFrames targets = .ok ())
    (previous : Option (List (List α))) {group other : Nat} (hgroup : group < cell.groups.length)
    (hfollows : Follows targets group other) (solution : Solution α) :
    (cell.solveCarried targets previous group other solution).isSome := by
  rw [solveCarried, List.getElem?_eq_getElem (hfollows.lt hframes),
    List.getElem?_eq_getElem (hcount ▸ hgroup)]
  exact solveGroup_isSome cell hcount previous hgroup _

theorem solveAfter_eq_none_iff (cell : Cell α) {targets : List (Target α)}
    (hcount : targets.length = cell.groups.length) (hframes : cell.checkFrames targets = .ok ())
    (previous : Option (List (List α))) (links : Nat) :
    ∀ {group : Nat}, group < cell.groups.length →
      (cell.solveAfter targets previous links group = none ↔
        (climb targets links group).isSome) := by
  induction links with
  | zero => intro group _; simp [solveAfter, climb]
  | succ links ih =>
    intro group hgroup
    cases hcarrier : carrier? targets group with
    | none =>
      have hsome := solveGroup_isSome cell hcount previous hgroup none
      rw [solveAfter_succ_free cell previous links hcarrier, climb, hcarrier, Option.bind_none]
      simpa [Option.isSome_iff_ne_none] using hsome
    | some other =>
      have hfollows := carrier?_eq_some_iff.mp hcarrier
      rw [solveAfter_succ_carried cell previous links hcarrier, climb, hcarrier, Option.bind_some,
        ← ih (hfollows.lt hframes)]
      cases cell.solveAfter targets previous links other with
      | none => simp
      | some solution =>
        have hsome := solveCarried_isSome cell hcount hframes previous hgroup hfollows solution
        simpa [Option.isSome_iff_ne_none] using hsome

/-- More links do not change a solution that was found. -/
theorem solveAfter_succ_of_eq_some (cell : Cell α) (targets : List (Target α))
    (previous : Option (List (List α))) {links : Nat} :
    ∀ {group : Nat} {solution : Solution α},
      cell.solveAfter targets previous links group = some solution →
        cell.solveAfter targets previous (links + 1) group = some solution := by
  induction links with
  | zero => intro group solution h; simp [solveAfter] at h
  | succ links ih =>
    intro group solution h
    cases hcarrier : carrier? targets group with
    | none => rwa [solveAfter_succ_free cell previous _ hcarrier] at h ⊢
    | some other =>
      rw [solveAfter_succ_carried cell previous _ hcarrier] at h ⊢
      obtain ⟨carried, hcarried, hsolution⟩ := Option.bind_eq_some_iff.mp h
      rw [ih hcarried, Option.bind_some, hsolution]

theorem solveAfter_eq_of_le (cell : Cell α) (targets : List (Target α))
    (previous : Option (List (List α))) {few many group : Nat} (hle : few ≤ many)
    {solution : Solution α} (h : cell.solveAfter targets previous few group = some solution) :
    cell.solveAfter targets previous many group = some solution := by
  induction hle with
  | refl => exact h
  | step _ ih => exact solveAfter_succ_of_eq_some cell targets previous ih

/-- As many links as there are groups are enough for whatever any number of links solves. -/
theorem solveAfter_eq_of_eq_some (cell : Cell α) {targets : List (Target α)}
    (hcount : targets.length = cell.groups.length) (hframes : cell.checkFrames targets = .ok ())
    (previous : Option (List (List α))) {links group : Nat} (hgroup : group < cell.groups.length)
    {solution : Solution α} (h : cell.solveAfter targets previous links group = some solution) :
    cell.solveAfter targets previous cell.groups.length group = some solution := by
  have hnone := fun few ↦ solveAfter_eq_none_iff cell hcount hframes previous few hgroup
  cases hall : cell.solveAfter targets previous cell.groups.length group with
  | none =>
    have hforever := climb_isSome_of_climb hframes hgroup ((hnone _).mp hall) links
    rw [(hnone links).mpr hforever] at h
    cases h
  | some other =>
    rcases Nat.le_total links cell.groups.length with hle | hle
    · rw [← hall, solveAfter_eq_of_le cell targets previous hle h]
    · rw [← h, solveAfter_eq_of_le cell targets previous hle hall]

/-! ### The whole cell -/

theorem exists_solveAfter_eq_none_iff (cell : Cell α) {targets : List (Target α)}
    (hcount : targets.length = cell.groups.length) (hframes : cell.checkFrames targets = .ok ())
    (previous : Option (List (List α))) :
    (∃ group < cell.groups.length,
      cell.solveAfter targets previous cell.groups.length group = none) ↔ HasLoop targets := by
  constructor
  · rintro ⟨group, hgroup, hnone⟩
    exact hasLoop_of_climb hframes hgroup
      ((solveAfter_eq_none_iff cell hcount hframes previous _ hgroup).mp hnone)
  · rintro ⟨group, hloop⟩
    have hgroup : group < cell.groups.length := by
      obtain ⟨_, _, hfollows⟩ := Relation.TransGen.tail'_iff.mp hloop
      exact hfollows.lt hframes
    exact ⟨group, hgroup, (solveAfter_eq_none_iff cell hcount hframes previous _ hgroup).mpr
      (climb_isSome_of_loop hloop _)⟩

/-- What a step with frames that can be placed is solved to. -/
theorem solve_eq (cell : Cell α) {targets : List (Target α)}
    (hcount : targets.length = cell.groups.length) (hframes : cell.checkFrames targets = .ok ())
    (previous : Option (List (List α))) :
    cell.solve targets previous =
      match (List.range cell.groups.length).mapM
        (cell.solveAfter targets previous cell.groups.length) with
      | none => .error (.coupling .loop)
      | some solutions => .ok solutions := by
  cases hsolved : (List.range cell.groups.length).mapM
    (cell.solveAfter targets previous cell.groups.length) <;>
      simp only [solve, hcount, hframes, hsolved, ne_eq, not_true_eq_false, if_false]

theorem solve_eq_loop_iff (cell : Cell α) {targets : List (Target α)}
    (hcount : targets.length = cell.groups.length) (hframes : cell.checkFrames targets = .ok ())
    (previous : Option (List (List α))) :
    cell.solve targets previous = .error (.coupling .loop) ↔ HasLoop targets := by
  rw [solve_eq cell hcount hframes, ← exists_solveAfter_eq_none_iff cell hcount hframes previous]
  cases hall : (List.range cell.groups.length).mapM
      (cell.solveAfter targets previous cell.groups.length) with
  | none =>
    obtain ⟨group, hgroup, hnone⟩ := mapM_eq_none_iff.mp hall
    exact iff_of_true rfl ⟨group, List.mem_range.mp hgroup, hnone⟩
  | some solutions =>
    refine iff_of_false (fun h ↦ by cases h) ?_
    rintro ⟨group, hgroup, hnone⟩
    have hnoneAll := mapM_eq_none_iff.mpr ⟨group, List.mem_range.mpr hgroup, hnone⟩
    rw [hall] at hnoneAll
    cases hnoneAll

theorem exists_solve_of_not_hasLoop (cell : Cell α) {targets : List (Target α)}
    (hcount : targets.length = cell.groups.length) (hframes : cell.checkFrames targets = .ok ())
    (previous : Option (List (List α))) (hnone : ¬ HasLoop targets) :
    ∃ solutions, cell.solve targets previous = .ok solutions := by
  have hnoLoop := mt (solve_eq_loop_iff cell hcount hframes previous).mp hnone
  rw [solve_eq cell hcount hframes] at hnoLoop ⊢
  cases hall : (List.range cell.groups.length).mapM
      (cell.solveAfter targets previous cell.groups.length) with
  | none => exact absurd (by rw [hall]) hnoLoop
  | some solutions => exact ⟨solutions, rfl⟩

theorem solve_eq_ok_iff_map (cell : Cell α) {targets : List (Target α)}
    (hcount : targets.length = cell.groups.length) (hframes : cell.checkFrames targets = .ok ())
    (previous : Option (List (List α))) {solutions : List (Solution α)} :
    cell.solve targets previous = .ok solutions ↔ (List.range cell.groups.length).map
      (cell.solveAfter targets previous cell.groups.length) = solutions.map some := by
  rw [solve_eq cell hcount hframes, ← mapM_eq_some_iff]
  cases (List.range cell.groups.length).mapM
    (cell.solveAfter targets previous cell.groups.length) <;> simp

/-- A solved step holds what every group is solved to after the groups that it waits for. -/
theorem solve_eq_ok_iff (cell : Cell α) {targets : List (Target α)}
    (hcount : targets.length = cell.groups.length) (hframes : cell.checkFrames targets = .ok ())
    (previous : Option (List (List α))) {solutions : List (Solution α)} :
    cell.solve targets previous = .ok solutions ↔ solutions.length = cell.groups.length ∧
      ∀ group < cell.groups.length,
        cell.solveAfter targets previous cell.groups.length group = solutions[group]? := by
  rw [solve_eq_ok_iff_map cell hcount hframes]
  constructor
  · intro h
    have hlength : solutions.length = cell.groups.length := by
      simpa using (congrArg List.length h).symm
    refine ⟨hlength, fun group hgroup ↦ ?_⟩
    have hentry := congrArg (·[group]?) h
    simpa [hgroup, hlength] using hentry
  · rintro ⟨hlength, hall⟩
    refine List.ext_getElem (by simp [hlength]) fun group hgroup _ ↦ ?_
    rw [List.length_map, List.length_range] at hgroup
    simpa [hlength, hgroup] using hall group hgroup

/-- A step is solved only with one target per group, in frames that can be placed. -/
theorem checked_of_solve {cell : Cell α} {targets : List (Target α)}
    {previous : Option (List (List α))} {solutions : List (Solution α)}
    (h : cell.solve targets previous = .ok solutions) :
    targets.length = cell.groups.length ∧ cell.checkFrames targets = .ok () := by
  by_cases hcount : targets.length = cell.groups.length
  · cases hframes : cell.checkFrames targets with
    | error error => simp [solve, hcount, hframes] at h
    | ok => exact ⟨hcount, rfl⟩
  · simp [solve, hcount] at h

end Toolpath.Cell
