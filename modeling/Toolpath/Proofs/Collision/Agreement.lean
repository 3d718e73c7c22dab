import Toolpath.Proofs.Exact.Passage
import Toolpath.Proofs.Collision.Reporting
import Toolpath.Proofs.Collision.Search

/-!
The collision search of several workers against the sweep of one. When all tasks are over, the
stored collision is that of the lowest pair with a hit (`Sound.found_eq_some_iff`), which is the one
that the sweep from pair to pair comes upon first (`EarliestHit.earliest?_eq`).
`Program.collisionSearch_agrees` says so for programs, whatever the order of the actions.
-/

set_option autoImplicit false
set_option relaxedAutoImplicit false

namespace Toolpath

variable {α σ : Type} [Scalar α]

namespace CollisionSearch

variable {search : CollisionSearch α σ} {state : SearchState α} {pair : Nat}

/-! ### From pair to pair -/

theorem stretch?_succ {before : Nat} {previous next : Step α}
    (hprevious : search.keyframes[before]? = some previous)
    (hnext : search.keyframes[before + 1]? = some next) :
    search.stretch? (before + 1) = some ⟨previous, next, before == 0,
      search.check.settings.divisions search.check.cell previous next⟩ := by
  simp only [stretch?, hprevious, hnext]

/-- A task that is left alone is the sweep between its keyframes. -/
theorem alone?_succ {before : Nat} {previous next : Step α}
    (hprevious : search.keyframes[before]? = some previous)
    (hnext : search.keyframes[before + 1]? = some next) :
    search.alone? (before + 1) = search.check.pair? previous next (before == 0) := by
  rw [alone?_eq (stretch?_succ hprevious hnext), scanFrom?, startPoint, CollisionCheck.pair?]
  dsimp only
  split_ifs <;> rfl

/-- The later pairs are swept in their order. -/
theorem laterPairs?_drop_eq (search : CollisionSearch α σ) (count : Nat) :
    ∀ {start : Nat}, start + count + 2 = search.keyframes.length →
      search.check.laterPairs? (search.keyframes.drop (start + 1)) =
        (List.range' (start + 2) count).findSome? search.alone? := by
  induction count with
  | zero =>
    intro start hlength
    have hlast := List.drop_eq_getElem_cons (l := search.keyframes) (i := start + 1) (by omega)
    rw [hlast, List.drop_of_length_le (by omega)]
    rfl
  | succ count ih =>
    intro start hlength
    have hprevious : start + 1 < search.keyframes.length := by omega
    have hnext : start + 2 < search.keyframes.length := by omega
    have hlater := @ih (start + 1) (by omega)
    rw [List.drop_eq_getElem_cons hnext] at hlater
    rw [List.drop_eq_getElem_cons hprevious, List.drop_eq_getElem_cons hnext,
      CollisionCheck.laterPairs?, List.range'_succ, List.findSome?_cons,
      alone?_succ (List.getElem?_eq_getElem hprevious) (List.getElem?_eq_getElem hnext), ← hlater]
    have hlate : (start + 1 == 0) = false := rfl
    rw [hlate]
    cases search.check.pair? (search.keyframes[start + 1]) (search.keyframes[start + 2]) false with
    | none => rfl
    | some collision => rfl

/-- The pairs of a timeline are swept in their order. -/
theorem earliest?_eq_findSome? (hmany : 2 ≤ search.keyframes.length) :
    search.check.earliest? search.keyframes =
      (List.range' 1 (search.keyframes.length - 1)).findSome? search.alone? := by
  obtain ⟨count, hcount⟩ := Nat.exists_eq_add_of_le' hmany
  have hlater := search.laterPairs?_drop_eq count (by omega : 0 + count + 2 = _)
  have hfirst : 0 < search.keyframes.length := by omega
  have hsecond : 0 + 1 < search.keyframes.length := by omega
  have hkeyframes := List.drop_eq_getElem_cons hfirst
  rw [List.drop_zero, List.drop_eq_getElem_cons hsecond] at hkeyframes
  rw [List.drop_eq_getElem_cons hsecond] at hlater
  have hlength : search.keyframes.length - 1 = count + 1 := by omega
  rw [hlength, List.range'_succ, List.findSome?_cons,
    alone?_succ (List.getElem?_eq_getElem hfirst) (List.getElem?_eq_getElem hsecond), ← hlater]
  conv_lhs => rw [hkeyframes, CollisionCheck.earliest?]
  rw [beq_self_eq_true]
  cases search.check.pair? (search.keyframes[0]) (search.keyframes[0 + 1]) true with
  | none => rfl
  | some collision => rfl

/-! ### The earliest collision -/

/-- The states that the task of a way looks at. -/
def states (search : CollisionSearch α σ) (stretch : Stretch α) :
    List (Nat × List (Solution α)) :=
  search.check.checkedStates stretch.previous stretch.next stretch.divisions
    (startPoint stretch).left (startPoint stretch).number (startPoint stretch).joints

/-- The collision is that of the lowest pair with one, and there the one in the first state where
shapes collide. -/
structure EarliestHit (search : CollisionSearch α σ) (pair : Nat) (collision : Collision α) :
    Prop where
  hit : ∃ stretch, search.stretch? pair = some stretch ∧
    search.check.FirstHit stretch.next (search.states stretch) collision
  lowest : ∀ lower < pair, search.alone? lower = none

theorem alone?_eq_some_iff {collision : Collision α} :
    search.alone? pair = some collision ↔ ∃ stretch, search.stretch? pair = some stretch ∧
      search.check.FirstHit stretch.next (search.states stretch) collision := by
  rw [alone?, Option.bind_eq_some_iff]
  exact exists_congr fun stretch ↦ and_congr_right' CollisionCheck.scan_eq_some_iff

theorem EarliestHit.eq_of_alone? {other : Nat} {collision found : Collision α}
    (h : search.EarliestHit pair collision) (hfound : search.alone? other = some found)
    (hlowest : ∀ lower < other, search.alone? lower = none) : other = pair ∧ found = collision := by
  have halone := alone?_eq_some_iff.mpr h.hit
  have hpair : other = pair := by
    refine Nat.le_antisymm (not_lt.mp fun hlt ↦ ?_) (not_lt.mp fun hlt ↦ ?_)
    · rw [hlowest pair hlt] at halone
      cases halone
    · rw [h.lowest other hlt] at hfound
      cases hfound
  subst hpair
  exact ⟨rfl, Option.some.inj (hfound.symm.trans halone)⟩

theorem EarliestHit.earliest?_eq {collision : Collision α}
    (h : search.EarliestHit pair collision) (hmany : 2 ≤ search.keyframes.length) :
    search.check.earliest? search.keyframes = some collision := by
  obtain ⟨stretch, hstretch, _⟩ := h.hit
  obtain ⟨hpos, hlt⟩ := lt_of_stretch? hstretch
  have hmem : pair ∈ List.range' 1 (search.keyframes.length - 1) :=
    List.mem_range'_1.mpr (by omega)
  have halone := alone?_eq_some_iff.mpr h.hit
  rw [earliest?_eq_findSome? hmany]
  obtain ⟨found, hfound⟩ := Option.isSome_iff_exists.mp
    (List.findSome?_isSome_iff.mpr ⟨pair, hmem, Option.isSome_iff_exists.mpr ⟨_, halone⟩⟩)
  obtain ⟨lower, other, later, hpairs, hother, hlower⟩ := List.findSome?_eq_some_iff.mp hfound
  -- The pairs before the one that is found are all those with a lower number.
  have hlowest : ∀ place < other, search.alone? place = none := by
    intro place hplace
    obtain ⟨count, _, rfl, hrest⟩ := List.range'_eq_append_iff.mp hpairs
    obtain ⟨rfl, _⟩ := List.range'_eq_cons_iff.mp hrest.symm
    by_cases hzero : place = 0
    · exact hzero ▸ rfl
    · exact hlower place (List.mem_range'_1.mpr (by omega))
  obtain ⟨_, rfl⟩ := h.eq_of_alone? hother hlowest
  exact hfound

theorem earliest?_eq_none (hmany : 2 ≤ search.keyframes.length)
    (hnone : ∀ pair, search.alone? pair = none) :
    search.check.earliest? search.keyframes = none := by
  rw [earliest?_eq_findSome? hmany]
  exact List.findSome?_eq_none_iff.mpr fun pair _ ↦ hnone pair

namespace Sound

/-- A task that is over found nothing, or something of an earlier pair is stored. -/
theorem alone?_eq_none (h : search.Sound state) (hfinished : search.Finished state)
    (hearlier : ¬ FoundBy state.found pair) : search.alone? pair = none := by
  cases hstretch : search.stretch? pair with
  | none => rw [alone?, hstretch, Option.bind_none]
  | some stretch =>
    have hfits := h.fits hstretch
    rw [hfinished pair (hstretch ▸ rfl)] at hfits
    exact hfits.resolve_right hearlier

/-- When all tasks are over, the stored collision is the earliest one. -/
theorem earliestHit (h : search.Sound state) (hfinished : search.Finished state)
    {collision : Collision α} (hfound : state.found = some (pair, collision)) :
    search.EarliestHit pair collision where
  hit := alone?_eq_some_iff.mp (h.found hfound)
  lowest := by
    intro lower hlt
    refine h.alone?_eq_none hfinished ?_
    rintro ⟨stored, hstored, hle⟩
    obtain rfl := Option.some.inj (hfound.symm.trans hstored)
    exact not_lt.mpr hle hlt

theorem found_eq_some_iff (h : search.Sound state) (hfinished : search.Finished state)
    {collision : Collision α} :
    state.found = some (pair, collision) ↔ search.EarliestHit pair collision := by
  refine ⟨h.earliestHit hfinished, fun hhit ↦ ?_⟩
  cases hfound : state.found with
  | none =>
    have hnone : search.alone? pair = none :=
      h.alone?_eq_none hfinished fun ⟨_, hstored, _⟩ ↦ by rw [hfound] at hstored; cases hstored
    rw [alone?_eq_some_iff.mpr hhit.hit] at hnone
    cases hnone
  | some stored =>
    have hearliest := h.earliestHit hfinished hfound
    obtain ⟨rfl, rfl⟩ := hhit.eq_of_alone? (h.found hfound) hearliest.lowest
    rfl

theorem found_eq_none_iff (h : search.Sound state) (hfinished : search.Finished state) :
    state.found = none ↔ ∀ pair, search.alone? pair = none := by
  constructor
  · intro hfound pair
    refine h.alone?_eq_none hfinished fun ⟨_, hstored, _⟩ ↦ ?_
    rw [hfound] at hstored
    cases hstored
  · intro hnone
    cases hfound : state.found with
    | none => rfl
    | some stored =>
      have halone := h.found hfound
      rw [hnone] at halone
      cases halone

end Sound

end CollisionSearch

/-! ### Hits everywhere -/

namespace CollisionCheck

variable {check : CollisionCheck α σ} {previous next : Step α}

theorem one_le_divisions (check : CollisionCheck α σ) (previous next : Step α) :
    1 ≤ check.settings.divisions check.cell previous next :=
  (foldl_max_le_iff.mp le_rfl).1

/-- A collision in the first state after the former keyframe is what the sweep from there finds. -/
theorem pair?_of_solve {solutions : List (Solution α)} {collision : Collision α}
    (hsolve : check.cell.solve (next.between previous check.cell
      (.ofParts 1 (check.settings.divisions check.cell previous next))) (some previous.joints) =
        .ok solutions)
    (hclean : ∀ solution ∈ solutions, solution.faults = [])
    (hcollision : check.collision? next solutions = some collision) :
    check.pair? previous next false = some collision := by
  obtain ⟨count, hcount⟩ := Nat.exists_eq_add_of_le' (check.one_le_divisions previous next)
  have hstate : check.state? previous next
      (check.settings.divisions check.cell previous next) 1 previous.joints = some solutions := by
    rw [state?, if_neg one_ne_zero, hsolve, Except.toOption, Option.filter_some, if_pos]
    simpa using hclean
  rw [hcount] at hstate
  simp only [pair?, hcount, Bool.false_eq_true, if_false, scan, hstate, hcollision]

end CollisionCheck

/-- Two shapes of the cell of the slide that always collide. -/
noncomputable def alwaysTouching (length : ℝ) : CollisionCheck ℝ Unit :=
  ⟨slideCell length, twoShapes, .ofSets [0] [1], fun _ _ _ _ ↦ true⟩

section Passage

variable {length start stop : ℝ} {previous next : Step ℝ}

theorem exists_collision?_of_over {solution : Solution ℝ} {value : ℝ} (hover : solution.Over value)
    (length : ℝ) (target : Step ℝ) :
    ∃ collision, (alwaysTouching length).collision? target [solution] = some collision := by
  obtain ⟨rest, hplanes⟩ := hover.planes
  exact exists_collision?_twoShapes rfl hplanes target

theorem exists_pair?_of_over (hover : previous.Over start) (length : ℝ) (next : Step ℝ) :
    ∃ collision, (alwaysTouching length).pair? previous next true = some collision := by
  obtain ⟨solution, hsolution, hstands⟩ := hover.exists_solutions
  obtain ⟨collision, hcollision⟩ := exists_collision?_of_over hstands length next
  rw [← hsolution] at hcollision
  refine ⟨collision, CollisionCheck.pair?_of_first ?_ hcollision⟩
  rw [hsolution]
  exact List.forall_mem_singleton.mpr hstands.faults

/-- They collide on the way as well as at its start. -/
theorem exists_pair?_of_passes (hover : previous.Over start) (hpasses : next.Passes stop)
    (hstart : start ∈ Set.Icc 0 length) (hstop : stop ∈ Set.Icc 0 length) :
    ∃ collision, (alwaysTouching length).pair? previous next false = some collision := by
  have hone := (alwaysTouching length).one_le_divisions previous next
  obtain ⟨target, hbetween, htarget⟩ := exists_between_of_passes hover hpasses length 1
    ((alwaysTouching length).settings.divisions (slideCell length) previous next)
  obtain ⟨solutions, hsolve⟩ :=
    (placeable_slideCell length htarget.coupling).exists_solve (some previous.joints)
  rw [← hbetween] at hsolve
  have hsolved := hsolve
  rw [hover.joints_eq] at hsolved
  obtain ⟨solution, rfl, hreached⟩ :=
    exists_over_of_solve_between hover hpasses hstart hstop hone hsolved
  obtain ⟨collision, hcollision⟩ := exists_collision?_of_over hreached length next
  exact ⟨collision, CollisionCheck.pair?_of_solve hsolve
    (List.forall_mem_singleton.mpr hreached.faults) hcollision⟩

/-- The search of a program for the collisions of the two shapes. -/
noncomputable def Program.touchingSearch (program : Program ℝ) (workers : Nat) :
    CollisionSearch ℝ Unit :=
  program.collisionSearch twoShapes (.ofSets [0] [1]) (fun _ _ _ _ ↦ true) workers

/-- While the slide passes, every pair of keyframes has a collision of its own. -/
theorem exists_alone?_passage {program : Program ℝ} (hlength : 0 ≤ length)
    {before kept first second : Step ℝ} {moving : List (Step ℝ)}
    (hpassage : program.Passage length before kept)
    (hkeyframes : program.PassageKeyframes length kept first second moving) (workers : Nat)
    {pair : Nat} (hpos : 0 < pair) (hlt : pair < program.keyframes.length) :
    ∃ collision, (program.touchingSearch workers).alone? pair = some collision := by
  obtain ⟨_, _, _, _, _, _, _, hcell, _⟩ := exists_stages hpassage.compiled
  obtain ⟨place, rfl⟩ := Nat.exists_eq_add_of_le' hpos
  have hprevious := List.getElem?_eq_getElem (Nat.lt_of_succ_lt hlt)
  have hnext := List.getElem?_eq_getElem hlt
  rw [CollisionSearch.alone?_succ hprevious hnext, Program.touchingSearch,
    Program.collisionSearch, hcell]
  generalize program.keyframes[place] = previous at hprevious
  generalize program.keyframes[place + 1] = next at hnext
  rw [hkeyframes.keyframes] at hprevious hnext
  cases place with
  | zero =>
    obtain rfl := Option.some.inj hprevious
    exact exists_pair?_of_over hkeyframes.stands.1 length next
  | succ place =>
    rw [List.getElem?_cons_succ] at hprevious
    obtain ⟨stop, hstop, hpasses⟩ := (hkeyframes.moves next (List.mem_of_getElem? hnext)).2
    rcases List.mem_cons.mp (List.mem_of_getElem? hprevious) with rfl | hmoving
    · exact exists_pair?_of_passes hkeyframes.stands.2 hpasses ⟨le_rfl, hlength⟩ hstop
    · obtain ⟨start, hstart, hbefore⟩ := (hkeyframes.moves previous hmoving).2
      exact exists_pair?_of_passes hbefore.over hpasses hstart hstop

end Passage

/-! ### Programs -/

/-- The search of a program by several workers is the one by a single worker, in whatever order the
tasks act and however old the best pairs are that they read. Every order of actions comes to an end,
it ends when all tasks are over and not before, and then the stored collision is the one of the
lowest pair of keyframes with a hit, in the first state and of the first shapes that hit there;
nothing is stored exactly where no task would find anything on its own. -/
theorem Program.collisionSearch_agrees (program : Program α) (scene : Scene σ)
    (settings : CollisionSettings α σ) (contact : Contact α σ) {workers : Nat}
    (hkeyframes : 2 ≤ program.keyframes.length) (hworkers : 0 < workers) :
    (∃ bound, ∀ schedule state,
      (program.collisionSearch scene settings contact workers).run schedule = some state →
        schedule.length ≤ bound) ∧
    ∀ schedule state,
      (program.collisionSearch scene settings contact workers).run schedule = some state →
        ((∀ pair reading, (program.collisionSearch scene settings contact workers).step state pair
            reading = none) ↔
          (program.collisionSearch scene settings contact workers).Finished state) ∧
        ((program.collisionSearch scene settings contact workers).Finished state →
          state.found.map Prod.snd = program.collision? scene settings contact ∧
          (∀ pair collision, state.found = some (pair, collision) ↔
            (program.collisionSearch scene settings contact workers).EarliestHit pair collision) ∧
          (state.found = none ↔ ∀ pair,
            (program.collisionSearch scene settings contact workers).alone? pair = none)) := by
  generalize hsearch : program.collisionSearch scene settings contact workers = search
  have hmany : 2 ≤ search.keyframes.length := hsearch ▸ hkeyframes
  have hroom : 0 < search.workers := hsearch ▸ hworkers
  have hearliest : program.collision? scene settings contact =
      search.check.earliest? search.keyframes := hsearch ▸ rfl
  refine ⟨⟨search.allRemaining .start, fun schedule state hrun ↦ ?_⟩, fun schedule state hrun ↦ ?_⟩
  · exact (Nat.le_add_right _ _).trans (CollisionSearch.length_add_remaining_le hrun)
  have hsound := CollisionSearch.sound_of_runFrom search.sound_start hrun
  refine ⟨⟨fun hstuck ↦ ?_, CollisionSearch.step_eq_none_of_finished⟩, fun hfinished ↦
    ⟨?_, fun pair collision ↦ hsound.found_eq_some_iff hfinished,
      hsound.found_eq_none_iff hfinished⟩⟩
  · by_contra hfinished
    obtain ⟨pair, next, hstep⟩ := hsound.exists_step hroom hfinished
    rw [hstuck pair none] at hstep
    cases hstep
  · rw [hearliest]
    cases hfound : state.found with
    | none =>
      exact (CollisionSearch.earliest?_eq_none hmany
        ((hsound.found_eq_none_iff hfinished).mp hfound)).symm
    | some stored => exact ((hsound.earliestHit hfinished hfound).earliest?_eq hmany).symm

/-- Where every pair of keyframes has a collision, the search comes to an end, and however its tasks
take turns, the collision of the first pair is stored. -/
theorem collisionSearch_agrees_passage : ∃ program collision,
    Program.compile "Passage" (slideCell 4) (passage 4) 1 = .ok program ∧
    program.keyframes.length = 7 ∧ 0 < 3 ∧
    (∀ pair, 0 < pair → pair < 7 → ∃ own, (program.touchingSearch 3).alone? pair = some own) ∧
    (∃ schedule state, (program.touchingSearch 3).run schedule = some state ∧
      (program.touchingSearch 3).Finished state) ∧
    ∀ schedule state, (program.touchingSearch 3).run schedule = some state →
      (program.touchingSearch 3).Finished state → state.found = some (1, collision) := by
  have hlength : (0 : ℝ) ≤ 4 := by norm_num
  obtain ⟨program, before, kept, first, second, moving, hpassage, hkeyframes⟩ :=
    exists_passage_keyframes hlength
  have hcount : program.keyframes.length = 7 := by
    rw [hkeyframes.keyframes, List.length_cons, List.length_cons, hkeyframes.count,
      divisions_passage_four hpassage]
  have hevery := fun {pair : Nat} (hpos : 0 < pair) (hlt : pair < 7) ↦
    exists_alone?_passage hlength hpassage hkeyframes 3 hpos (hcount ▸ hlt)
  obtain ⟨collision, hcollision⟩ := hevery one_pos (by decide)
  have hends := CollisionSearch.Sound.exists_finished (Nat.succ_pos 2)
    (program.touchingSearch 3).sound_start
  refine ⟨program, collision, hpassage.compiled, hcount, Nat.succ_pos 2, fun _ ↦ hevery, hends,
    fun schedule state hrun hfinished ↦ ?_⟩
  obtain ⟨_, hall⟩ := program.collisionSearch_agrees twoShapes (.ofSets [0] [1])
    (fun _ _ _ _ ↦ true) (hcount ▸ (by decide : 2 ≤ 7)) (Nat.succ_pos 2)
  obtain ⟨_, hstored, _⟩ := (hall schedule state hrun).2 hfinished
  refine (hstored 1 collision).mpr ⟨CollisionSearch.alone?_eq_some_iff.mp hcollision, ?_⟩
  intro lower hlower
  obtain rfl := Nat.lt_one_iff.mp hlower
  rfl

end Toolpath
