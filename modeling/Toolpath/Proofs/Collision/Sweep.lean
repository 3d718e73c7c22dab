import Mathlib.Data.List.Basic
import Mathlib.Order.Basic
import Toolpath.Collision.Sweep

/-!
What a swept collision check reports. `checkedStates` are the states that a sweep looks at, in their
order and without those with faults; the sweep reports the first of them in which shapes collide,
and of the shapes the first pair in the order of the settings (`scan_eq_some_iff`). The earliest
collision of a timeline is in such a state (`faults_of_pair?`, `faults_of_laterPairs?`).
-/

set_option autoImplicit false
set_option relaxedAutoImplicit false

namespace Toolpath

variable {α σ : Type} [Scalar α]

namespace CollisionCheck

variable {check : CollisionCheck α σ} {previous next target : Step α} {divisions : Nat}

/-! ### One state -/

/-- The collision is that of the first pair of shapes, in the order of the settings, that collides
in the state. -/
inductive FirstContact (check : CollisionCheck α σ) (target : Step α)
    (solutions : List (Solution α)) : Collision α → Prop where
  | intro {earlier later : List (Nat × Nat)} {a b : Nat}
    (hpairs : check.settings.pairs = earlier ++ (a, b) :: later)
    (hearlier : ∀ pair ∈ earlier, check.collides
      (check.scene.posedShapes check.cell check.settings target solutions) pair = false)
    (hcollides : check.collides
      (check.scene.posedShapes check.cell check.settings target solutions) (a, b) = true) :
    FirstContact check target solutions ⟨target.index, (min a b, max a b), solutions⟩

theorem collision?_eq_some_iff {solutions : List (Solution α)} {collision : Collision α} :
    check.collision? target solutions = some collision ↔
      check.FirstContact target solutions collision := by
  rw [collision?, Option.map_eq_some_iff]
  constructor
  · rintro ⟨⟨a, b⟩, hfind, rfl⟩
    obtain ⟨hcollides, earlier, later, hpairs, hearlier⟩ :=
      List.find?_eq_some_iff_append.mp hfind
    exact .intro hpairs (fun pair hpair ↦ by simpa using hearlier pair hpair) hcollides
  · rintro ⟨hpairs, hearlier, hcollides⟩
    refine ⟨(_, _), List.find?_eq_some_iff_append.mpr ⟨hcollides, _, _, hpairs, ?_⟩, rfl⟩
    exact fun pair hpair ↦ by simpa using hearlier pair hpair

theorem FirstContact.solutions_eq {solutions : List (Solution α)} {collision : Collision α}
    (h : check.FirstContact target solutions collision) : collision.solutions = solutions := by
  cases h
  rfl

theorem faults_of_state? {number : Nat} {joints : List (List α)} {solutions : List (Solution α)}
    (h : check.state? previous next divisions number joints = some solutions) :
    ∀ solution ∈ solutions, solution.faults = [] := by
  intro solution hsolution
  have hall := (Option.filter_eq_some_iff.mp h).2
  exact List.isEmpty_iff.mp (List.all_eq_true.mp hall solution hsolution)

/-! ### One sweep -/

/-- The states that a sweep looks at, each with its number. -/
def checkedStates (check : CollisionCheck α σ) (previous next : Step α) (divisions : Nat) :
    Nat → Nat → List (List α) → List (Nat × List (Solution α))
  | 0, _, _ => []
  | count + 1, number, joints =>
    match check.state? previous next divisions number joints with
    | none => checkedStates check previous next divisions count (number + 1) joints
    | some solutions => (number, solutions) ::
        checkedStates check previous next divisions count (number + 1)
          (solutions.map Solution.joints)

theorem scan_eq_findSome? (count : Nat) : ∀ (number : Nat) (joints : List (List α)),
    check.scan previous next divisions count number joints =
      (check.checkedStates previous next divisions count number joints).findSome? fun state ↦
        check.collision? next state.2 := by
  induction count with
  | zero => intro number joints; rfl
  | succ count ih =>
    intro number joints
    rw [scan, checkedStates]
    cases check.state? previous next divisions number joints with
    | none => exact ih _ _
    | some solutions =>
      dsimp only
      rw [List.findSome?_cons]
      cases check.collision? next solutions with
      | none => exact ih _ _
      | some collision => rfl

/-- The states that a sweep looks at have no faults. -/
theorem faults_of_mem_checkedStates {count : Nat} : ∀ {number : Nat} {joints : List (List α)}
    {state : Nat × List (Solution α)},
    state ∈ check.checkedStates previous next divisions count number joints →
      ∀ solution ∈ state.2, solution.faults = [] := by
  induction count with
  | zero => intro number joints state hstate; cases hstate
  | succ count ih =>
    intro number joints state hstate
    rw [checkedStates] at hstate
    cases hsolved : check.state? previous next divisions number joints with
    | none =>
      rw [hsolved] at hstate
      exact ih hstate
    | some solutions =>
      rw [hsolved] at hstate
      rcases List.mem_cons.mp hstate with rfl | hlater
      · exact faults_of_state? hsolved
      · exact ih hlater

/-- The collision is that of the first state with one. -/
inductive FirstHit (check : CollisionCheck α σ) (next : Step α)
    (states : List (Nat × List (Solution α))) (collision : Collision α) : Prop where
  | intro {earlier later : List (Nat × List (Solution α))} {number : Nat}
    {solutions : List (Solution α)} (hstates : states = earlier ++ (number, solutions) :: later)
    (hearlier : ∀ state ∈ earlier, check.collision? next state.2 = none)
    (hcontact : check.FirstContact next solutions collision)

theorem scan_eq_some_iff {count number : Nat} {joints : List (List α)} {collision : Collision α} :
    check.scan previous next divisions count number joints = some collision ↔
      check.FirstHit next (check.checkedStates previous next divisions count number joints)
        collision := by
  rw [scan_eq_findSome?, List.findSome?_eq_some_iff]
  constructor
  · rintro ⟨earlier, ⟨number, solutions⟩, later, hstates, hcontact, hearlier⟩
    exact .intro hstates hearlier (collision?_eq_some_iff.mp hcontact)
  · rintro ⟨hstates, hearlier, hcontact⟩
    exact ⟨_, _, _, hstates, collision?_eq_some_iff.mpr hcontact, hearlier⟩

/-- A sweep reports no state with faults. -/
theorem faults_of_scan {count number : Nat} {joints : List (List α)} {collision : Collision α}
    (h : check.scan previous next divisions count number joints = some collision) :
    ∀ solution ∈ collision.solutions, solution.faults = [] := by
  obtain @⟨earlier, later, place, solutions, hstates, _, hcontact⟩ := scan_eq_some_iff.mp h
  have hmem : (place, solutions) ∈ earlier ++ (place, solutions) :: later :=
    List.mem_append_right earlier List.mem_cons_self
  rw [← hstates] at hmem
  rw [hcontact.solutions_eq]
  exact faults_of_mem_checkedStates hmem

theorem faults_of_pair? {isFirst : Bool} {collision : Collision α}
    (h : check.pair? previous next isFirst = some collision) :
    ∀ solution ∈ collision.solutions, solution.faults = [] := by
  unfold pair? at h
  dsimp only at h
  split_ifs at h <;> exact faults_of_scan h

/-- The former keyframe counts as a state itself. -/
theorem state?_zero (hclean : ∀ solution ∈ previous.solutions, solution.faults = [])
    (joints : List (List α)) :
    check.state? previous next divisions 0 joints = some previous.solutions := by
  rw [state?, if_pos rfl, Option.filter_some, if_pos]
  simpa using hclean

/-- A collision in the first keyframe is what the sweep from there finds. -/
theorem pair?_of_first {collision : Collision α}
    (hclean : ∀ solution ∈ previous.solutions, solution.faults = [])
    (hcollision : check.collision? next previous.solutions = some collision) :
    check.pair? previous next true = some collision := by
  simp only [pair?, if_true, scan, state?_zero hclean, hcollision]

/-! ### The timeline -/

theorem faults_of_laterPairs? {collision : Collision α} {keyframes : List (Step α)}
    (h : check.laterPairs? keyframes = some collision) :
    ∀ solution ∈ collision.solutions, solution.faults = [] := by
  fun_induction laterPairs? check keyframes with
  | case1 previous next rest found hfound =>
    obtain rfl := Option.some.inj h
    exact faults_of_pair? hfound
  | case2 previous next rest _ ih => exact ih h
  | case3 => cases h

end CollisionCheck

end Toolpath
