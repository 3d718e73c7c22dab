import Mathlib.Algebra.Order.BigOperators.Group.Finset
import Mathlib.Data.Finset.Range
import Toolpath.Collision.Search

/-!
The collision search of several workers, action by action. `Moves` lists what one action of a task
can be. `Sound` is what every action keeps (`Sound.moves`): a task that goes on still finds what it
would find alone, a task gives up only where the stored collision is of an earlier pair, and what
the lock guards is touched by nobody but the task that has it. No action is without cost
(`Moves.remaining_lt`), and as long as a task is not over some task can act (`Sound.exists_step`);
so every order of actions comes to an end, and only when all tasks are over.
-/

set_option autoImplicit false
set_option relaxedAutoImplicit false

namespace Toolpath

variable {α σ : Type}

namespace TaskPhase

/-- Whether the task has the lock. -/
def isLocked : TaskPhase α → Bool
  | comparing _ => true
  | storing _ => true
  | lowering => true
  | leaving => true
  | _ => false

end TaskPhase

namespace SearchState

variable {state : SearchState α} {pair : Nat} {phase : TaskPhase α}

@[simp] theorem phase_enter_self : (state.enter pair phase).phase pair = phase :=
  if_pos rfl

theorem phase_enter_of_ne {other : Nat} (h : other ≠ pair) :
    (state.enter pair phase).phase other = state.phase other :=
  if_neg h

theorem best_cases (state : SearchState α) (pair : Nat) :
    state.best pair = pair ∨ state.best pair ∈ state.lowered := by
  unfold best
  cases hlowered : state.lowered with
  | nil => exact .inl rfl
  | cons least rest =>
    rcases min_choice pair least with hmin | hmin
    · exact .inl (by simp [hmin])
    · exact .inr (by simp [hmin])

end SearchState

/-- A collision of the pair or of an earlier one is stored. -/
def FoundBy (found : Option (Nat × Collision α)) (pair : Nat) : Prop :=
  ∃ stored ∈ found, stored.1 ≤ pair

variable [Scalar α]

namespace CollisionSearch

variable {search : CollisionSearch α σ} {state next : SearchState α} {pair : Nat}
  {stretch : Stretch α}

/-- What a task finds from a point on if it is left alone. -/
def scanFrom? (search : CollisionSearch α σ) (stretch : Stretch α) (point : ScanPoint α) :
    Option (Collision α) :=
  search.check.scan stretch.previous stretch.next stretch.divisions point.left point.number
    point.joints

/-- What the task of a pair finds if it is left alone. -/
def alone? (search : CollisionSearch α σ) (pair : Nat) : Option (Collision α) :=
  (search.stretch? pair).bind fun stretch ↦ search.scanFrom? stretch (startPoint stretch)

theorem alone?_eq (hstretch : search.stretch? pair = some stretch) :
    search.alone? pair = search.scanFrom? stretch (startPoint stretch) := by
  rw [alone?, hstretch, Option.bind_some]

/-- All tasks are over. -/
def Finished (search : CollisionSearch α σ) (state : SearchState α) : Prop :=
  ∀ pair, (search.stretch? pair).isSome → state.phase pair = .stopped

/-! ### One action -/

/-- What the next action of a task can be. -/
inductive Moves (search : CollisionSearch α σ) (stretch : Stretch α) (pair : Nat)
    (state : SearchState α) : SearchState α → Prop where
  | started (hphase : state.phase pair = .waiting) :
    Moves search stretch pair state (state.enter pair (.looking (startPoint stretch)))
  | ended {number : Nat} {joints : List (List α)}
    (hphase : state.phase pair = .looking ⟨0, number, joints⟩) :
    Moves search stretch pair state (state.enter pair .stopped)
  | abandoned {point : ScanPoint α} {best : Nat} (hphase : state.phase pair = .looking point)
    (hbest : best ∈ state.lowered) (hlt : best < pair) :
    Moves search stretch pair state (state.enter pair .stopped)
  | looked {left number : Nat} {joints : List (List α)}
    (hphase : state.phase pair = .looking ⟨left + 1, number, joints⟩) :
    Moves search stretch pair state (state.enter pair (.testing ⟨left, number, joints⟩))
  | tested {point : ScanPoint α} (hphase : state.phase pair = .testing point) :
    Moves search stretch pair state (state.enter pair (search.tested stretch point))
  | locked {collision : Collision α} (hphase : state.phase pair = .hitting collision)
    (hfree : state.holder = none) :
    Moves search stretch pair state
      { state.enter pair (.comparing collision) with holder := some pair }
  | preferred {collision : Collision α} (hphase : state.phase pair = .comparing collision)
    (hbetter : ∀ stored ∈ state.found, pair < stored.1) :
    Moves search stretch pair state (state.enter pair (.storing collision))
  | kept {collision : Collision α} (hphase : state.phase pair = .comparing collision)
    (hfound : FoundBy state.found pair) :
    Moves search stretch pair state (state.enter pair .lowering)
  | stored {collision : Collision α} (hphase : state.phase pair = .storing collision) :
    Moves search stretch pair state
      { state.enter pair .lowering with found := some (pair, collision) }
  | lowered (hphase : state.phase pair = .lowering) :
    Moves search stretch pair state
      { state.enter pair .leaving with lowered := state.best pair :: state.lowered }
  | left (hphase : state.phase pair = .leaving) :
    Moves search stretch pair state { state.enter pair .stopped with holder := none }

theorem moves_of_step {reading : Option Nat} (h : search.step state pair reading = some next) :
    ∃ stretch, search.stretch? pair = some stretch ∧ search.Moves stretch pair state next := by
  unfold step at h
  split at h
  · cases h
  next stretch hstretch =>
  refine ⟨stretch, hstretch, ?_⟩
  split at h
  · next hphase =>
    split_ifs at h
    obtain rfl := Option.some.inj h
    exact .started hphase
  · next hphase =>
    obtain rfl := Option.some.inj h
    exact .ended hphase
  · next hphase =>
    split_ifs at h with hreading hlower
    · obtain rfl := Option.some.inj h
      obtain ⟨best, rfl, hlt⟩ := (Option.any_eq_true _ _).mp hlower
      have hbest : best ∈ state.lowered := by simpa [SearchState.readings] using hreading
      exact .abandoned hphase hbest (decide_eq_true_iff.mp hlt)
    · obtain rfl := Option.some.inj h
      exact .looked hphase
  · next hphase =>
    obtain rfl := Option.some.inj h
    exact .tested hphase
  · next hphase =>
    split_ifs at h with hfree
    obtain rfl := Option.some.inj h
    exact .locked hphase (Option.isNone_iff_eq_none.mp hfree)
  · next hphase =>
    split_ifs at h with hbetter
    · obtain rfl := Option.some.inj h
      exact .preferred hphase fun stored hstored ↦
        decide_eq_true_iff.mp ((Option.all_eq_true _ _).mp hbetter stored hstored)
    · obtain rfl := Option.some.inj h
      obtain ⟨stored, hstored, hle⟩ :=
        (Option.all_eq_false _ _).mp (Bool.eq_false_iff.mpr hbetter)
      exact .kept hphase ⟨stored, hstored, not_lt.mp (decide_eq_false_iff_not.mp hle)⟩
  · next hphase =>
    obtain rfl := Option.some.inj h
    exact .stored hphase
  · next hphase =>
    obtain rfl := Option.some.inj h
    exact .lowered hphase
  · next hphase =>
    obtain rfl := Option.some.inj h
    exact .left hphase
  · cases h

/-! ### What every action keeps -/

/-- What is known of a task by what it does next. -/
def Fits (search : CollisionSearch α σ) (stretch : Stretch α) (pair : Nat)
    (found : Option (Nat × Collision α)) : TaskPhase α → Prop
  | .waiting => True
  | .looking point => search.scanFrom? stretch point = search.alone? pair
  | .testing point =>
    search.scanFrom? stretch { point with left := point.left + 1 } = search.alone? pair
  | .hitting collision => search.alone? pair = some collision
  | .comparing collision => search.alone? pair = some collision
  | .storing collision =>
    search.alone? pair = some collision ∧ ∀ stored ∈ found, pair < stored.1
  | .lowering => FoundBy found pair
  | .leaving => FoundBy found pair
  | .stopped => search.alone? pair = none ∨ FoundBy found pair

/-- A state that the search can be in. -/
structure Sound (search : CollisionSearch α σ) (state : SearchState α) : Prop where
  begun : ∀ {pair : Nat}, search.stretch? pair = none → state.phase pair = .waiting
  fits : ∀ {pair : Nat} {stretch : Stretch α}, search.stretch? pair = some stretch →
    search.Fits stretch pair state.found (state.phase pair)
  found : ∀ {pair : Nat} {collision : Collision α}, state.found = some (pair, collision) →
    search.alone? pair = some collision
  lowered : ∀ best ∈ state.lowered, FoundBy state.found best
  holder : ∀ {pair : Nat}, state.holder = some pair ↔ (state.phase pair).isLocked = true

theorem sound_start (search : CollisionSearch α σ) : search.Sound .start where
  begun := fun _ ↦ rfl
  fits := fun _ ↦ trivial
  found := by intro _ _ h; cases h
  lowered := by intro _ h; cases h
  holder := by intro _; exact ⟨nofun, nofun⟩

/-- Where the stored collision gets better, tasks that do not replace it know as much as before. -/
theorem Fits.mono {found better : Option (Nat × Collision α)} {phase : TaskPhase α}
    (h : search.Fits stretch pair found phase)
    (hbetter : ∀ {pair : Nat}, FoundBy found pair → FoundBy better pair)
    (hphase : ∀ collision, phase ≠ .storing collision) :
    search.Fits stretch pair better phase := by
  cases phase with
  | storing collision => exact absurd rfl (hphase collision)
  | lowering => exact hbetter h
  | leaving => exact hbetter h
  | stopped => exact h.imp_right hbetter
  | _ => exact h

/-- Testing a state is one round of the scan. -/
theorem Fits.tested {found : Option (Nat × Collision α)} {point : ScanPoint α}
    (h : search.Fits stretch pair found (.testing point)) :
    search.Fits stretch pair found (search.tested stretch point) := by
  simp only [Fits, scanFrom?, CollisionCheck.scan] at h
  unfold CollisionSearch.tested
  generalize search.check.state? stretch.previous stretch.next stretch.divisions point.number
    point.joints = solved at h ⊢
  cases solved with
  | none => exact h
  | some solutions =>
    dsimp only at h ⊢
    generalize search.check.collision? stretch.next solutions = hit at h ⊢
    cases hit with
    | none => exact h
    | some collision => exact h.symm

namespace Sound

/-- An action changes what one task does next, and beyond that only what is listed here. -/
theorem of_phase (h : search.Sound state) (hstretch : search.stretch? pair = some stretch)
    {phase : TaskPhase α} (hphase : next.phase = (state.enter pair phase).phase)
    (hfits : search.Fits stretch pair next.found phase)
    (hothers : ∀ {other : Nat} {way : Stretch α}, other ≠ pair →
      search.Fits way other state.found (state.phase other) →
        search.Fits way other next.found (state.phase other))
    (hfound : ∀ {pair : Nat} {collision : Collision α}, next.found = some (pair, collision) →
      search.alone? pair = some collision)
    (hlowered : ∀ best ∈ next.lowered, FoundBy next.found best)
    (hpair : next.holder = some pair ↔ phase.isLocked = true)
    (hholder : ∀ {other : Nat}, other ≠ pair →
      (next.holder = some other ↔ state.holder = some other)) : search.Sound next where
  begun := by
    intro other hother
    have hne : other ≠ pair := by rintro rfl; rw [hstretch] at hother; cases hother
    rw [hphase, SearchState.phase_enter_of_ne hne, h.begun hother]
  fits := by
    intro other way hother
    rw [hphase]
    by_cases heq : other = pair
    · subst heq
      obtain rfl := Option.some.inj (hstretch.symm.trans hother)
      rwa [SearchState.phase_enter_self]
    · rw [SearchState.phase_enter_of_ne heq]
      exact hothers heq (h.fits hother)
  found := hfound
  lowered := hlowered
  holder := by
    intro other
    rw [hphase]
    by_cases heq : other = pair
    · subst heq
      rwa [SearchState.phase_enter_self]
    · rw [SearchState.phase_enter_of_ne heq, hholder heq, h.holder]

/-- An action that touches nothing but its own task. -/
theorem enter (h : search.Sound state) (hstretch : search.stretch? pair = some stretch)
    {phase : TaskPhase α} (hfits : search.Fits stretch pair state.found phase)
    (hlocked : phase.isLocked = (state.phase pair).isLocked) :
    search.Sound (state.enter pair phase) := by
  refine h.of_phase hstretch rfl hfits (fun _ hother ↦ hother) h.found h.lowered ?_ fun _ ↦ Iff.rfl
  rw [hlocked]
  exact h.holder

/-- Only one task has the lock. -/
theorem eq_of_isLocked (h : search.Sound state) {other : Nat}
    (hpair : (state.phase pair).isLocked = true) (hother : (state.phase other).isLocked = true) :
    other = pair :=
  Option.some.inj ((h.holder.mpr hother).symm.trans (h.holder.mpr hpair))

/-- Only the task that has the lock replaces the stored collision, and by one of an earlier pair. -/
theorem store (h : search.Sound state) (hstretch : search.stretch? pair = some stretch)
    {collision : Collision α} (hphase : state.phase pair = .storing collision) :
    search.Sound { state.enter pair .lowering with found := some (pair, collision) } := by
  have hfits := h.fits hstretch
  rw [hphase] at hfits
  obtain ⟨halone, hearlier⟩ := hfits
  have hlocked : (state.phase pair).isLocked = true := by rw [hphase]; rfl
  have hbetter : ∀ {place : Nat}, FoundBy state.found place →
      FoundBy (some (pair, collision)) place := by
    rintro place ⟨stored, hstored, hle⟩
    exact ⟨_, rfl, ((hearlier stored hstored).trans_le hle).le⟩
  refine h.of_phase hstretch (rfl : _ = (state.enter pair .lowering).phase) ⟨_, rfl, le_rfl⟩ ?_ ?_
    ?_ ?_ fun _ ↦ Iff.rfl
  · intro other way hne hother
    refine hother.mono hbetter fun found hstoring ↦ hne (h.eq_of_isLocked hlocked ?_)
    rw [hstoring]
    rfl
  · intro place found heq
    obtain ⟨rfl, rfl⟩ := Prod.mk.inj (Option.some.inj heq)
    exact halone
  · exact fun best hbest ↦ hbetter (h.lowered best hbest)
  · exact ⟨fun _ ↦ rfl, fun _ ↦ h.holder.mpr hlocked⟩

theorem moves (h : search.Sound state) (hstretch : search.stretch? pair = some stretch)
    (hmoves : search.Moves stretch pair state next) : search.Sound next := by
  have hfits := h.fits hstretch
  cases hmoves with
  | started hphase => exact h.enter hstretch (alone?_eq hstretch).symm (by rw [hphase]; rfl)
  | ended hphase =>
    rw [hphase] at hfits
    exact h.enter hstretch (.inl hfits.symm) (by rw [hphase]; rfl)
  | abandoned hphase hbest hlt =>
    obtain ⟨stored, hstored, hle⟩ := h.lowered _ hbest
    exact h.enter hstretch (.inr ⟨stored, hstored, hle.trans hlt.le⟩) (by rw [hphase]; rfl)
  | looked hphase =>
    rw [hphase] at hfits
    exact h.enter hstretch hfits (by rw [hphase]; rfl)
  | @tested point hphase =>
    rw [hphase] at hfits
    have hunlocked : (search.tested stretch point).isLocked = false := by
      unfold CollisionSearch.tested
      split
      · rfl
      · split <;> rfl
    exact h.enter hstretch hfits.tested (by rw [hunlocked, hphase]; rfl)
  | locked hphase hfree =>
    rw [hphase] at hfits
    refine h.of_phase hstretch rfl hfits (fun _ hother ↦ hother) h.found h.lowered ?_ ?_
    · exact ⟨fun _ ↦ rfl, fun _ ↦ rfl⟩
    · intro other hne
      rw [hfree]
      exact ⟨fun heq ↦ absurd (Option.some.inj heq).symm hne, nofun⟩
  | preferred hphase hbetter =>
    rw [hphase] at hfits
    exact h.enter hstretch ⟨hfits, hbetter⟩ (by rw [hphase]; rfl)
  | kept hphase hfound => exact h.enter hstretch hfound (by rw [hphase]; rfl)
  | stored hphase => exact h.store hstretch hphase
  | lowered hphase =>
    rw [hphase] at hfits
    have hlocked : (state.phase pair).isLocked = true := by rw [hphase]; rfl
    refine h.of_phase hstretch rfl hfits (fun _ hother ↦ hother) h.found ?_ ?_ fun _ ↦ Iff.rfl
    · refine List.forall_mem_cons.mpr ⟨?_, h.lowered⟩
      rcases state.best_cases pair with hbest | hbest
      · change FoundBy state.found (state.best pair)
        rwa [hbest]
      · exact h.lowered _ hbest
    · exact ⟨fun _ ↦ rfl, fun _ ↦ h.holder.mpr hlocked⟩
  | left hphase =>
    rw [hphase] at hfits
    have hlocked : (state.phase pair).isLocked = true := by rw [hphase]; rfl
    refine h.of_phase hstretch rfl (.inr hfits) (fun _ hother ↦ hother) h.found h.lowered ?_ ?_
    · exact ⟨nofun, nofun⟩
    · intro other hne
      exact ⟨nofun, fun hother ↦
        absurd (Option.some.inj (hother.symm.trans (h.holder.mpr hlocked))) hne⟩

end Sound

/-- Whatever the order of the actions, the state stays sound. -/
theorem sound_of_runFrom {schedule : List (Nat × Option Nat)} :
    ∀ {state next : SearchState α}, search.Sound state →
      search.runFrom state schedule = some next → search.Sound next := by
  induction schedule with
  | nil =>
    intro state next hsound h
    exact Option.some.inj h ▸ hsound
  | cons action rest ih =>
    intro state next hsound h
    unfold runFrom at h
    split at h
    · cases h
    · next after hstep =>
      obtain ⟨stretch, hstretch, hmoves⟩ := moves_of_step hstep
      exact ih (hsound.moves hstretch hmoves) h

/-! ### Every action costs something -/

/-- How many actions a task can still do at most. -/
def remaining (search : CollisionSearch α σ) (pair : Nat) : TaskPhase α → Nat
  | .waiting => 2 * ((search.stretch? pair).map fun way ↦ (startPoint way).left).getD 0 + 7
  | .looking point => 2 * point.left + 6
  | .testing point => 2 * point.left + 7
  | .hitting _ => 5
  | .comparing _ => 4
  | .storing _ => 3
  | .lowering => 2
  | .leaving => 1
  | .stopped => 0

/-- How many actions all tasks can still do at most. -/
def allRemaining (search : CollisionSearch α σ) (state : SearchState α) : Nat :=
  ∑ pair ∈ Finset.range search.keyframes.length, search.remaining pair (state.phase pair)

theorem Moves.exists_phase (hstretch : search.stretch? pair = some stretch)
    (h : search.Moves stretch pair state next) :
    ∃ phase, next.phase = (state.enter pair phase).phase ∧
      search.remaining pair phase < search.remaining pair (state.phase pair) := by
  cases h with
  | started hphase =>
    refine ⟨_, rfl, ?_⟩
    rw [hphase, remaining, remaining, hstretch, Option.map_some, Option.getD_some]
    exact Nat.lt_succ_self _
  | abandoned hphase _ _ => exact ⟨_, rfl, by rw [hphase]; exact Nat.succ_pos _⟩
  | @tested point hphase =>
    refine ⟨_, rfl, ?_⟩
    rw [hphase]
    unfold CollisionSearch.tested
    split
    · exact Nat.lt_succ_self _
    · split
      · simp only [remaining]
        omega
      · exact Nat.lt_succ_self _
  | looked hphase =>
    refine ⟨_, rfl, ?_⟩
    rw [hphase]
    simp only [remaining]
    omega
  | ended hphase => exact ⟨_, rfl, by rw [hphase]; exact Nat.succ_pos _⟩
  | locked hphase _ => exact ⟨_, rfl, by rw [hphase]; exact Nat.lt_succ_self _⟩
  | preferred hphase _ => exact ⟨_, rfl, by rw [hphase]; exact Nat.lt_succ_self _⟩
  | kept hphase _ => exact ⟨_, rfl, by rw [hphase]; simp [remaining]⟩
  | stored hphase => exact ⟨_, rfl, by rw [hphase]; exact Nat.lt_succ_self _⟩
  | lowered hphase => exact ⟨_, rfl, by rw [hphase]; exact Nat.lt_succ_self _⟩
  | left hphase => exact ⟨_, rfl, by rw [hphase]; exact Nat.lt_succ_self _⟩

theorem lt_of_stretch? (h : search.stretch? pair = some stretch) :
    0 < pair ∧ pair < search.keyframes.length := by
  cases pair with
  | zero => cases h
  | succ before =>
    simp only [stretch?] at h
    split at h
    · next hnext =>
      exact ⟨Nat.succ_pos before, (List.getElem?_eq_some_iff.mp hnext).1⟩
    · cases h

theorem Moves.remaining_lt (hstretch : search.stretch? pair = some stretch)
    (h : search.Moves stretch pair state next) :
    search.allRemaining next < search.allRemaining state := by
  obtain ⟨phase, hphase, hless⟩ := h.exists_phase hstretch
  refine Finset.sum_lt_sum (fun other _ ↦ ?_)
    ⟨pair, Finset.mem_range.mpr (lt_of_stretch? hstretch).2, ?_⟩
  · by_cases heq : other = pair
    · subst heq
      rw [hphase, SearchState.phase_enter_self]
      exact hless.le
    · rw [hphase, SearchState.phase_enter_of_ne heq]
  · rw [hphase, SearchState.phase_enter_self]
    exact hless

/-- No order of actions goes on for ever. -/
theorem length_add_remaining_le {schedule : List (Nat × Option Nat)} :
    ∀ {state next : SearchState α}, search.runFrom state schedule = some next →
      schedule.length + search.allRemaining next ≤ search.allRemaining state := by
  induction schedule with
  | nil =>
    intro state next h
    rw [← Option.some.inj h, List.length_nil, Nat.zero_add]
  | cons action rest ih =>
    intro state next h
    unfold runFrom at h
    split at h
    · cases h
    · next after hstep =>
      obtain ⟨stretch, hstretch, hmoves⟩ := moves_of_step hstep
      have hlater := ih h
      have hless := hmoves.remaining_lt hstretch
      rw [List.length_cons]
      omega

/-! ### Some task can always act -/

theorem step_eq_none_of_finished (h : search.Finished state) (pair : Nat) (reading : Option Nat) :
    search.step state pair reading = none := by
  rw [step]
  cases hstretch : search.stretch? pair with
  | none => rfl
  | some stretch => simp only [h pair (hstretch ▸ rfl)]

/-- A task that has the lock can act. -/
theorem exists_step_of_isLocked (hstretch : search.stretch? pair = some stretch)
    (hlocked : (state.phase pair).isLocked = true) :
    ∃ next, search.step state pair none = some next := by
  rw [step, hstretch]
  generalize state.phase pair = phase at hlocked
  cases phase with
  | comparing collision =>
    dsimp only
    split_ifs <;> exact ⟨_, rfl⟩
  | storing collision => exact ⟨_, rfl⟩
  | lowering => exact ⟨_, rfl⟩
  | leaving => exact ⟨_, rfl⟩
  | _ => cases hlocked

/-- Where a worker is at a task, that task can act or waits for another one that can. -/
theorem Sound.exists_step_of_isBusy (h : search.Sound state)
    (hbusy : (state.phase pair).isBusy = true) :
    ∃ pair next, search.step state pair none = some next := by
  have hstretch : ∀ {pair : Nat}, state.phase pair ≠ .waiting →
      ∃ stretch, search.stretch? pair = some stretch := fun hphase ↦
    Option.ne_none_iff_exists'.mp (mt h.begun hphase)
  obtain ⟨stretch, hway⟩ : ∃ stretch, search.stretch? pair = some stretch :=
    hstretch fun hwaiting ↦ by rw [hwaiting] at hbusy; cases hbusy
  cases hphase : state.phase pair with
  | waiting => rw [hphase] at hbusy; cases hbusy
  | stopped => rw [hphase] at hbusy; cases hbusy
  | looking point =>
    obtain ⟨left, number, joints⟩ := point
    refine ⟨pair, ?_⟩
    simp only [step, hway, hphase]
    cases left with
    | zero => exact ⟨_, rfl⟩
    | succ left => exact ⟨_, by simp [SearchState.readings]; rfl⟩
  | testing point => exact ⟨pair, _, by simp only [step, hway, hphase]; rfl⟩
  | hitting collision =>
    cases hholder : state.holder with
    | none => exact ⟨pair, _, by simp only [step, hway, hphase, hholder]; rfl⟩
    | some other =>
      have hlocked := h.holder.mp hholder
      obtain ⟨_, hother⟩ := hstretch fun hwaiting ↦ by rw [hwaiting] at hlocked; cases hlocked
      exact ⟨other, exists_step_of_isLocked hother hlocked⟩
  | comparing => exact ⟨pair, exists_step_of_isLocked hway (by rw [hphase]; rfl)⟩
  | storing => exact ⟨pair, exists_step_of_isLocked hway (by rw [hphase]; rfl)⟩
  | lowering => exact ⟨pair, exists_step_of_isLocked hway (by rw [hphase]; rfl)⟩
  | leaving => exact ⟨pair, exists_step_of_isLocked hway (by rw [hphase]; rfl)⟩

/-- As long as a task is not over, some task can act. -/
theorem Sound.exists_step (h : search.Sound state) (hworkers : 0 < search.workers)
    (hfinished : ¬ search.Finished state) :
    ∃ pair next, search.step state pair none = some next := by
  by_cases hbusy : ∃ other, (state.phase other).isBusy = true
  · obtain ⟨other, hother⟩ := hbusy
    exact h.exists_step_of_isBusy hother
  · simp only [Finished, not_forall] at hfinished
    obtain ⟨pair, hstretch, hphase⟩ := hfinished
    obtain ⟨stretch, hway⟩ := Option.isSome_iff_exists.mp hstretch
    have hidle : ∀ other, (state.phase other).isBusy = false := fun other ↦
      Bool.eq_false_iff.mpr fun hother ↦ hbusy ⟨other, hother⟩
    have hwaiting : state.phase pair = .waiting := by
      have hpair := hidle pair
      generalize state.phase pair = phase at hpair hphase
      cases phase with
      | waiting => rfl
      | stopped => exact absurd rfl hphase
      | _ => cases hpair
    have hroom : search.busyCount state < search.workers := by
      rw [busyCount, List.countP_eq_zero.mpr fun other _ ↦ by simp [hidle]]
      exact hworkers
    exact ⟨pair, _, by simp only [step, hway, hwaiting, if_pos hroom]; rfl⟩

/-- From every state that the search can be in, some order of actions completes all tasks. -/
theorem Sound.exists_finished (hworkers : 0 < search.workers) {state : SearchState α}
    (h : search.Sound state) :
    ∃ schedule last, search.runFrom state schedule = some last ∧ search.Finished last := by
  induction hcount : search.allRemaining state using Nat.strong_induction_on generalizing state with
  | h count ih =>
    by_cases hfinished : search.Finished state
    · exact ⟨[], state, rfl, hfinished⟩
    obtain ⟨pair, next, hstep⟩ := h.exists_step hworkers hfinished
    obtain ⟨stretch, hstretch, hmoves⟩ := moves_of_step hstep
    obtain ⟨schedule, last, hrun, hlast⟩ :=
      ih _ (hcount ▸ hmoves.remaining_lt hstretch) (h.moves hstretch hmoves) rfl
    refine ⟨(pair, none) :: schedule, last, ?_, hlast⟩
    rw [runFrom, hstep]
    exact hrun

end CollisionSearch

end Toolpath
