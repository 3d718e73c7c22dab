import Toolpath.Proofs.Exact.Passage
import Toolpath.Proofs.Playback.Rising
import Toolpath.Proofs.Playback.Posing

/-!
How far playback depends on what was shown before. Around a moment there is a first pair of
neighbouring keyframes and a last one (`IsFirstPair`, `IsLastPair`); they are the same unless a
keyframe between the two ends of the timeline stands at that very moment (`exists_keyframe_at`). A
search from a place where another one has ended finds one of the two (`seek_cases`), and such a
place it ends at again (`settled_seek`). Hence every moment has at most two pictures, the one seen
when coming from the start and the one seen when coming from the end (`compile_shows_alike`).
-/

set_option autoImplicit false
set_option relaxedAutoImplicit false

namespace Toolpath

variable {α : Type} [Scalar α]

/-! ### Pairs around a moment -/

/-- The times of keyframes from 0 to `last`, which rise and do not pass the end. -/
structure InOrder (times : Nat → α) (last : Nat) (stop : α) : Prop where
  times_le : ∀ {place later : Nat}, place ≤ later → later ≤ last → times place ≤ times later
  le_stop : ∀ {place : Nat}, place ≤ last → times place ≤ stop

/-- The first pair around the moment, told by its later keyframe: only the keyframes before it are
earlier than the moment. -/
structure IsFirstPair (times : Nat → α) (last : Nat) (time : α) (cursor : Nat) : Prop where
  one_le : 1 ≤ cursor
  le_last : cursor ≤ last
  earlier : ∀ {place : Nat}, 1 ≤ place → place < cursor → times place < time
  until_last : cursor < last → time ≤ times cursor

/-- The last pair around the moment, told by its later keyframe: only the keyframes from there on
are later than the moment. -/
structure IsLastPair (times : Nat → α) (last : Nat) (time : α) (cursor : Nat) : Prop where
  one_le : 1 ≤ cursor
  le_last : cursor ≤ last
  from_first : 1 < cursor → times (cursor - 1) ≤ time
  later : ∀ {place : Nat}, cursor ≤ place → place < last → time < times place

/-- A place where the search for a moment before the end can have ended: the beginning, or a
keyframe that stands after the one before it. -/
def Settled (times : Nat → α) (last : Nat) (stop : α) (cursor : Nat) : Prop :=
  cursor ≤ 1 ∨ cursor ≤ last ∧ times (cursor - 1) < stop ∧
    (times (cursor - 1) < times cursor ∨ cursor = last)

section Order

variable [OrderedScalar α] {times : Nat → α} {last : Nat} {stop time : α}

open OrderedScalar

theorem IsFirstPair.eq {cursor other : Nat} (h : IsFirstPair times last time cursor)
    (hother : IsFirstPair times last time other) : cursor = other := by
  have hle : ∀ {cursor other : Nat}, IsFirstPair times last time cursor →
      IsFirstPair times last time other → other ≤ cursor := by
    intro cursor other h hother
    by_contra hlt
    have hpassed := hother.earlier h.one_le (by omega)
    exact not_le_of_lt hpassed (h.until_last (by have := hother.le_last; omega))
  exact Nat.le_antisymm (hle hother h) (hle h hother)

theorem IsLastPair.eq {cursor other : Nat} (h : IsLastPair times last time cursor)
    (hother : IsLastPair times last time other) : cursor = other := by
  have hle : ∀ {cursor other : Nat}, IsLastPair times last time cursor →
      IsLastPair times last time other → other ≤ cursor := by
    intro cursor other h hother
    by_contra hlt
    have hone := h.one_le
    have hlast := hother.le_last
    have hpassed : time < times (other - 1) := h.later (by omega) (by omega)
    exact not_le_of_lt hpassed (hother.from_first (by omega))
  exact Nat.le_antisymm (hle hother h) (hle h hother)

/-- Two different pairs around a moment have a keyframe between them that stands there. -/
theorem exists_keyframe_at (horder : InOrder times last stop) {cursor other : Nat}
    (hfirst : IsFirstPair times last time cursor) (hlast : IsLastPair times last time other)
    (hne : other ≠ cursor) : 0 < cursor ∧ cursor < last ∧ times cursor ≤ time ∧
      time ≤ times cursor := by
  have hone := hlast.one_le
  have hend := hlast.le_last
  have hlt : cursor < other := by
    by_contra hle
    have hearlier := hfirst.earlier hone (by omega)
    have hlater := hlast.later le_rfl (by have := hfirst.le_last; omega)
    exact not_le_of_lt hearlier (le_of_lt hlater)
  have hbefore := hlast.from_first (by have := hfirst.one_le; omega)
  have hle : times cursor ≤ times (other - 1) := horder.times_le (by omega) (by omega)
  exact ⟨hfirst.one_le, by omega, le_trans hle hbefore, hfirst.until_last (by omega)⟩

/-! ### Where a search ends -/

omit [OrderedScalar α] in
theorem seek_zero (times : Nat → α) (last : Nat) (time : α) :
    seek times last time 0 = seek times last time 1 := rfl

omit [OrderedScalar α] in
theorem seek_eq (times : Nat → α) (time : α) {cursor : Nat} (hone : 1 ≤ cursor)
    (hle : cursor ≤ last) : seek times last time cursor =
      retreat times time (advance times time (last - cursor) cursor) := by
  rw [seek, max_eq_left hone, min_eq_left hle]

section Search

variable (horder : InOrder times last stop) (htime : time ≤ stop) {cursor : Nat}

include horder htime

/-- A search that goes on ends with the first pair. -/
theorem isFirstPair_seek (hone : 1 ≤ cursor) (hlt : cursor < last)
    (hearlier : times cursor < time) :
    IsFirstPair times last time (seek times last time cursor) := by
  rw [seek_eq times time hone hlt.le]
  generalize hstop : advance times time (last - cursor) cursor = place
  have hstart : cursor ≤ place := hstop ▸ le_advance _ cursor
  have hend : place ≤ cursor + (last - cursor) := hstop ▸ advance_le _ cursor
  have hplaced : place < last → ¬ times place < time := by
    intro hbefore
    rw [← hstop]
    exact not_lt_time_advance (by omega)
  have hmoved : cursor < place := by
    refine lt_of_le_of_ne hstart fun heq ↦ ?_
    exact hplaced (heq ▸ hlt) (heq ▸ hearlier)
  have hpassed : ∀ {earlier : Nat}, 1 ≤ earlier → earlier < place → times earlier < time := by
    intro earlier _ hpast
    by_cases hbehind : earlier < cursor
    · exact lt_of_le_of_lt (horder.times_le hbehind.le hlt.le) hearlier
    · exact lt_time_of_lt_advance (by omega) (hstop ▸ hpast)
  have hback : ¬ time < times (place - 1) := fun hlater ↦
    not_le_of_lt hlater (le_of_lt (hpassed (by omega) (by omega)))
  rw [retreat_eq hback]
  refine ⟨by omega, by omega, hpassed, fun hbefore ↦ ?_⟩
  exact le_of_not_lt (horder.times_le le_rfl hbefore.le) (refl_of_le htime).1 (hplaced hbefore)

/-- A search that goes back ends with the last pair. -/
theorem isLastPair_retreat (hone : 1 ≤ cursor) (hle : cursor ≤ last)
    (hback : retreat times time cursor < cursor) :
    IsLastPair times last time (retreat times time cursor) := by
  refine ⟨one_le_retreat hone, hback.le.trans hle, fun hmany ↦ ?_, fun {place} hplace hlast ↦ ?_⟩
  · exact le_of_not_lt (refl_of_le htime).1 (horder.times_le le_rfl (by omega))
      (not_time_lt_retreat hmany)
  · by_cases hpassed : place < cursor
    · exact time_lt_of_retreat_le hplace hpassed
    · have hlater := time_lt_of_retreat_le (Nat.le_sub_one_of_lt hback) (Nat.sub_one_lt_of_lt hone)
      exact lt_of_lt_of_le hlater (horder.times_le (by omega) hlast.le)

omit [OrderedScalar α] horder htime in
theorem seek_eq_retreat (hone : 1 ≤ cursor) (hle : cursor ≤ last)
    (hstays : cursor < last → ¬ times cursor < time) :
    seek times last time cursor = retreat times time cursor := by
  rw [seek_eq times time hone hle]
  by_cases hlt : cursor < last
  · rw [advance_eq (hstays hlt)]
  · rw [Nat.le_antisymm hle (not_lt.mp hlt), Nat.sub_self, advance]

theorem isFirstPair_seek_zero (hlast : 1 ≤ last) :
    IsFirstPair times last time (seek times last time 0) := by
  rw [seek_zero]
  by_cases hearlier : 1 < last ∧ times 1 < time
  · exact isFirstPair_seek horder htime le_rfl hearlier.1 hearlier.2
  · rw [seek_eq_retreat le_rfl hlast fun hlt hpassed ↦ hearlier ⟨hlt, hpassed⟩, retreat]
    · refine ⟨le_rfl, hlast, fun hone hlt ↦ absurd hone (not_le.mpr hlt), fun hlt ↦ ?_⟩
      exact le_of_not_lt (horder.times_le le_rfl hlast) (refl_of_le htime).1
        fun hpassed ↦ hearlier ⟨hlt, hpassed⟩
    · exact fun place hplace ↦ by omega

/-- From where a search has ended, a search ends with the first pair or with the last one. -/
theorem seek_cases (hlast : 1 ≤ last) (hsettled : Settled times last stop cursor) :
    IsFirstPair times last time (seek times last time cursor) ∨
      time < stop ∧ IsLastPair times last time (seek times last time cursor) := by
  by_cases hsmall : cursor ≤ 1
  · have hzero : seek times last time cursor = seek times last time 0 := by
      rw [seek, seek, max_eq_right hsmall, max_eq_right (Nat.zero_le 1)]
    exact .inl (hzero ▸ isFirstPair_seek_zero horder htime hlast)
  obtain ⟨hle, hstop, hnext⟩ := hsettled.resolve_left hsmall
  by_cases hearlier : cursor < last ∧ times cursor < time
  · exact .inl (isFirstPair_seek horder htime (by omega) hearlier.1 hearlier.2)
  have hstays : cursor < last → ¬ times cursor < time := fun hlt hpassed ↦ hearlier ⟨hlt, hpassed⟩
  rw [seek_eq_retreat (by omega) hle hstays]
  have hself := (refl_of_le htime).1
  have hkept : times (cursor - 1) ≤ times (cursor - 1) := horder.times_le le_rfl (by omega)
  by_cases hback : retreat times time cursor < cursor
  · have hlater := time_lt_of_retreat_le (Nat.le_sub_one_of_lt hback) (by omega)
    exact .inr ⟨lt_of_lt_of_le hlater (le_of_lt hstop),
      isLastPair_retreat horder htime (by omega) hle hback⟩
  -- The search stays, and which pair this is shows in the keyframe before the cursor.
  have hstayed : retreat times time cursor = cursor :=
    Nat.le_antisymm (retreat_le cursor) (not_lt.mp hback)
  by_cases hfirst : times (cursor - 1) < time
  · left
    rw [hstayed]
    refine ⟨by omega, hle, fun _ hplace ↦ ?_, fun hlt ↦ ?_⟩
    · exact lt_of_le_of_lt (horder.times_le (by omega) (by omega)) hfirst
    · exact le_of_not_lt (horder.times_le le_rfl hle) hself (hstays hlt)
  · right
    have hlater : time ≤ times (cursor - 1) := le_of_not_lt hkept hself hfirst
    refine ⟨lt_of_le_of_lt hlater hstop, ?_⟩
    rw [hstayed]
    refine ⟨by omega, hle, fun hmany ↦ ?_, fun hplace hlt ↦ ?_⟩
    · exact le_of_not_lt hself hkept (not_time_lt_of_retreat_eq hstayed hmany)
    · have hrises := hnext.resolve_right (by omega)
      exact lt_of_le_of_lt hlater (lt_of_lt_of_le hrises (horder.times_le hplace hlt.le))

/-- The search from the first pair around the end finds the last pair around every moment before. -/
theorem isLastPair_seek_of_isFirstPair (hbefore : time < stop)
    (hend : IsFirstPair times last stop cursor) :
    IsLastPair times last time (seek times last time cursor) := by
  have hfar : cursor < last → time < times cursor := fun hlt ↦
    lt_of_lt_of_le hbefore (hend.until_last hlt)
  rw [seek_eq_retreat hend.one_le hend.le_last fun hlt hpassed ↦
    not_le_of_lt hpassed (le_of_lt (hfar hlt))]
  by_cases hback : retreat times time cursor < cursor
  · exact isLastPair_retreat horder htime hend.one_le hend.le_last hback
  · have hstayed : retreat times time cursor = cursor :=
      Nat.le_antisymm (retreat_le cursor) (not_lt.mp hback)
    rw [hstayed]
    refine ⟨hend.one_le, hend.le_last, fun hmany ↦ ?_, fun hplace hlt ↦ ?_⟩
    · have hle := hend.le_last
      exact le_of_not_lt (refl_of_le htime).1 (horder.times_le le_rfl (by omega))
        (not_time_lt_of_retreat_eq hstayed hmany)
    · exact lt_of_lt_of_le (hfar (lt_of_le_of_lt hplace hlt)) (horder.times_le hplace hlt.le)

/-- Where a search ends, another one can start. -/
theorem settled_seek (hlast : 1 ≤ last) (hsettled : Settled times last stop cursor) :
    Settled times last stop (seek times last time cursor) := by
  have hpairs := seek_cases horder htime hlast hsettled
  generalize seek times last time cursor = found at hpairs ⊢
  by_cases hsmall : found ≤ 1
  · exact .inl hsmall
  right
  rcases hpairs with hfirst | ⟨hbefore, hfinal⟩
  · have hearlier := hfirst.earlier (by omega : 1 ≤ found - 1) (by omega)
    refine ⟨hfirst.le_last, lt_of_lt_of_le hearlier htime, ?_⟩
    by_cases hlt : found < last
    · exact .inl (lt_of_lt_of_le hearlier (hfirst.until_last hlt))
    · exact .inr (Nat.le_antisymm hfirst.le_last (not_lt.mp hlt))
  · have hearlier := hfinal.from_first (by omega)
    refine ⟨hfinal.le_last, lt_of_le_of_lt hearlier hbefore, ?_⟩
    by_cases hlt : found < last
    · exact .inl (lt_of_le_of_lt hearlier (hfinal.later le_rfl hlt))
    · exact .inr (Nat.le_antisymm hfinal.le_last (not_lt.mp hlt))

end Search

end Order

/-! ### The moment asked for -/

section Moment

variable [OrderedScalar α] {duration : α} (hduration : 0 ≤ duration)

open OrderedScalar

include hduration

theorem larger_zero_eq : Scalar.larger duration 0 = duration := by
  rw [Scalar.larger, if_neg fun hlt ↦ not_le_of_lt hlt hduration,
    if_pos (refl_of_le hduration).2]

/-- Whatever is asked for, the moment shown lies within the program. -/
theorem playbackTime_le (time : α) (normalized : Bool) :
    playbackTime duration time normalized ≤ duration := by
  rw [playbackTime, larger_zero_eq hduration]
  generalize (if normalized then time * duration else time) = asked
  unfold Scalar.clamp
  split_ifs with hself _ hlate
  · exact hduration
  · exact (refl_of_le hduration).2
  · exact le_of_not_lt (refl_of_le hduration).2 hself hlate
  · exact hduration

/-- A moment of the program is shown as it is asked for. -/
theorem playbackTime_of_le {moment : α} (hmoment : 0 ≤ moment) (hle : moment ≤ duration) :
    playbackTime duration moment false = moment := by
  rw [playbackTime, larger_zero_eq hduration]
  simp only [Bool.false_eq_true, if_false, if_pos (refl_of_le hmoment).2, Scalar.clamp]
  rw [if_neg fun hlt ↦ not_le_of_lt hlt hmoment, if_neg fun hlt ↦ not_le_of_lt hlt hle]

theorem playbackTime_duration : playbackTime duration duration false = duration :=
  playbackTime_of_le hduration hduration (refl_of_le hduration).2

end Moment

/-! ### Playback -/

namespace Playback

variable {program : Program α} {time : α} {normalized : Bool}

/-- What is shown depends on nothing but the place where the search ends. -/
theorem shown_congr {playback other : Playback α}
    (hseek : program.seekFrom (playbackTime program.duration time normalized) playback.cursor =
      program.seekFrom (playbackTime program.duration time normalized) other.cursor) :
    (playback.animate program time normalized).2 = (other.animate program time normalized).2 := by
  unfold Program.seekFrom Program.keyTime at hseek
  unfold animate
  dsimp only
  split
  · rfl
  · next only _ => cases program.cell.solve only.targets none <;> rfl
  · next first _ _ =>
    simp only [hseek]
    split <;> rfl

theorem cursor_animate (playback : Playback α) (hmany : 2 ≤ program.keyframes.length) :
    (playback.animate program time normalized).1.cursor =
      program.seekFrom (playbackTime program.duration time normalized) playback.cursor := by
  unfold animate
  dsimp only
  split
  · next hnil => rw [hnil] at hmany; exact absurd hmany (by simp)
  · next hsingle => rw [hsingle] at hmany; exact absurd hmany (by simp)
  · split <;> rfl

/-- A call at the duration seeks the end from the first pair. -/
theorem cursor_after_duration [OrderedScalar α] (hmany : 2 ≤ program.keyframes.length)
    (hduration : 0 ≤ program.duration) :
    (after program [(program.duration, false)]).cursor =
      program.seekFrom program.duration 0 := by
  refine (start.cursor_animate hmany).trans ?_
  rw [playbackTime_duration hduration]
  rfl

theorem after_concat (program : Program α) (calls : List (α × Bool)) (call : α × Bool) :
    after program (calls ++ [call]) =
      ((after program calls).animate program call.1 call.2).1 := by
  rw [after, List.foldl_append]
  rfl

/-- Whatever was shown before, the cursor stands where a search can have ended. -/
theorem settled_after [OrderedScalar α] (hmany : 2 ≤ program.keyframes.length)
    (hduration : 0 ≤ program.duration)
    (horder : InOrder program.keyTime (program.keyframes.length - 1) program.duration)
    (calls : List (α × Bool)) :
    Settled program.keyTime (program.keyframes.length - 1) program.duration
      (after program calls).cursor := by
  induction calls using List.reverseRecOn with
  | nil => exact .inl (Nat.zero_le 1)
  | append_singleton calls call ih =>
    rw [after_concat, cursor_animate _ hmany]
    exact settled_seek horder (playbackTime_le hduration call.1 call.2) (by omega) ih

end Playback

/-! ### Programs -/

/-- What a program shows at a moment after earlier calls. -/
def Program.shownAfter (program : Program α) (calls : List (α × Bool)) (time : α)
    (normalized : Bool) : Except (StructureError α) (Snapshot α) :=
  ((Playback.after program calls).animate program time normalized).2

theorem Program.keyTime_eq {program : Program α} {place : Nat} {keyframe : Step α}
    (h : program.keyframes[place]? = some keyframe) :
    program.keyTime place = keyframe.totalTime := by
  rw [keyTime, h, Option.map_some, Option.getD_some]

theorem Program.inOrder_keyTime {program : Program α} (hmany : 2 ≤ program.keyframes.length)
    (hrising : Rising 0 program.keyframes program.duration) [OrderedScalar α] :
    InOrder program.keyTime (program.keyframes.length - 1) program.duration := by
  have hkeyframe : ∀ {place : Nat}, place ≤ program.keyframes.length - 1 →
      ∃ keyframe, program.keyframes[place]? = some keyframe := fun {place} hplace ↦
    ⟨_, List.getElem?_eq_getElem (by omega : place < program.keyframes.length)⟩
  refine ⟨fun {place later} hle hlast ↦ ?_, fun {place} hplace ↦ ?_⟩
  · obtain ⟨keyframe, hearlier⟩ := hkeyframe (hle.trans hlast)
    obtain ⟨other, hlater⟩ := hkeyframe hlast
    rw [keyTime_eq hearlier, keyTime_eq hlater]
    by_cases hlt : place < later
    · exact hrising.getElem?_le hearlier hlater hlt
    · obtain rfl := Nat.le_antisymm hle (not_lt.mp hlt)
      obtain rfl := Option.some.inj (hearlier.symm.trans hlater)
      exact (OrderedScalar.refl_of_le (hrising.mem_le (List.mem_of_getElem? hlater)).2).1
  · obtain ⟨keyframe, hplaced⟩ := hkeyframe hplace
    rw [keyTime_eq hplaced]
    exact (hrising.mem_le (List.mem_of_getElem? hplaced)).2

/-- With several keyframes the target at the cursor is shown. -/
theorem Program.Shows.exists_targetIndex {program : Program α} {moment : α} {cursor : Nat}
    {snapshot : Snapshot α} (h : program.Shows moment cursor snapshot)
    (hmany : 2 ≤ program.keyframes.length) :
    ∃ next, program.keyframes[cursor]? = some next ∧ snapshot.targetIndex = next.index := by
  cases h with
  | still hkeyframes =>
    rw [hkeyframes, List.length_singleton] at hmany
    exact absurd hmany (by decide)
  | moving _ hnext => exact ⟨_, hnext, rfl⟩

/-- What a program with several keyframes shows after earlier calls, and where. -/
theorem Program.exists_shownAfter {name : String} {cell : Cell α}
    {toolpaths : List (List (Target α))} {stepSize : α} {program : Program α}
    (h : Program.compile name cell toolpaths stepSize = .ok program)
    (hmany : 2 ≤ program.keyframes.length) (calls : List (α × Bool)) (time : α)
    (normalized : Bool) : ∃ snapshot next,
      program.shownAfter calls time normalized = .ok snapshot ∧
      program.keyframes[program.seekFrom (playbackTime program.duration time normalized)
        (Playback.after program calls).cursor]? = some next ∧
      snapshot.targetIndex = next.index := by
  obtain ⟨count, first, rest, solutions, prepared, journey, hstages, heq⟩ := exists_stages_eq h
  have hplaceable : ∀ keyframe ∈ program.keyframes, program.cell.Placeable keyframe.targets := by
    subst heq
    exact fun _ hkeyframe ↦ hstages.placeable_keyframe hkeyframe
  obtain ⟨snapshot, hshown, hshows⟩ :=
    Program.exists_shows (List.ne_nil_of_length_pos (by omega)) hplaceable
      (Playback.after program calls)
  rw [Playback.cursor_animate _ hmany] at hshows
  obtain ⟨next, hnext, htarget⟩ := hshows.exists_targetIndex hmany
  exact ⟨snapshot, next, hshown, hnext, htarget⟩

/-- At the end of the first pause stands a keyframe, which is the later one of the first pair around
that moment and the former one of the last pair. -/
theorem Program.Passage.pairs {program : Program ℝ} {length : ℝ}
    {before kept first second : Step ℝ} {moving : List (Step ℝ)}
    (h : program.Passage length before kept)
    (hkeyframes : program.PassageKeyframes length kept first second moving) :
    program.seekFrom 1 0 = 1 ∧
      1 < program.seekFrom 1 (Playback.after program [(program.duration, false)]).cursor := by
  obtain ⟨count, _, _, _, prepared, journey, hstages, hprogram⟩ := exists_stages_eq h.compiled
  have hrising : Rising 0 program.keyframes program.duration := hprogram ▸ hstages.rising
  have hduration := hrising.le
  have hlength : program.keyframes.length = moving.length + 2 := by
    rw [hkeyframes.keyframes, List.length_cons, List.length_cons]
  have hmany : 2 ≤ program.keyframes.length := by omega
  have hlast : 1 < program.keyframes.length - 1 := by
    have hcount := hkeyframes.count
    omega
  have horder := Program.inOrder_keyTime hmany hrising
  have hone : program.keyTime 1 = 1 := by
    rw [Program.keyTime_eq (hkeyframes.keyframes ▸ rfl : program.keyframes[1]? = some second),
      hkeyframes.times.2]
  have hbefore : 1 < program.duration := by
    have htwo := hkeyframes.duration
    linarith
  constructor
  · have hpair : IsFirstPair program.keyTime (program.keyframes.length - 1) (1 : ℝ) 1 :=
      ⟨le_rfl, hlast.le, fun hplace hlt ↦ absurd hplace (not_le.mpr hlt), fun _ ↦ hone.ge⟩
    exact (isFirstPair_seek_zero horder hbefore.le hlast.le).eq hpair
  · have hpair := isLastPair_seek_of_isFirstPair horder hbefore.le hbefore
      (isFirstPair_seek_zero horder le_rfl hlast.le)
    rw [Playback.cursor_after_duration hmany hduration]
    by_contra hlow
    have hlater := hpair.later (not_lt.mp hlow) hlast
    exact absurd hlater (hone ▸ lt_irrefl _)

/-- Every moment of a program has at most two pictures. What is shown after any calls is what is
shown from the start, or what is shown coming from the end; and where these differ the moment is
before the end and a keyframe stands there that is neither the first nor the last one. -/
theorem compile_shows_alike [OrderedScalar α] {name : String} {cell : Cell α}
    {toolpaths : List (List (Target α))} {stepSize : α} {program : Program α}
    (h : Program.compile name cell toolpaths stepSize = .ok program) (calls : List (α × Bool))
    (time : α) (normalized : Bool) :
    program.shownAfter calls time normalized = program.shownAfter [] time normalized ∨
      program.shownAfter calls time normalized =
          program.shownAfter [(program.duration, false)] time normalized ∧
        playbackTime program.duration time normalized < program.duration ∧
        ∃ place keyframe, 0 < place ∧ place + 1 < program.keyframes.length ∧
          program.keyframes[place]? = some keyframe ∧
          keyframe.totalTime ≤ playbackTime program.duration time normalized ∧
          playbackTime program.duration time normalized ≤ keyframe.totalTime := by
  obtain ⟨count, first, rest, solutions, prepared, journey, hstages, hprogram⟩ :=
    exists_stages_eq h
  have hrising : Rising 0 program.keyframes program.duration := hprogram ▸ hstages.rising
  have hduration := hrising.le
  have hmoment := playbackTime_le hduration time normalized
  by_cases hmany : 2 ≤ program.keyframes.length
  · have hlast : 1 ≤ program.keyframes.length - 1 := by omega
    have horder := Program.inOrder_keyTime hmany hrising
    have hstart := isFirstPair_seek_zero horder hmoment hlast
    by_cases hsame : program.seekFrom (playbackTime program.duration time normalized)
        (Playback.after program calls).cursor =
      program.seekFrom (playbackTime program.duration time normalized) 0
    · exact .inl (Playback.shown_congr hsame)
    right
    rcases seek_cases horder hmoment hlast (Playback.settled_after hmany hduration horder calls)
      with hfirst | ⟨hbefore, hfinal⟩
    · exact absurd (hfirst.eq hstart) hsame
    · have hlater := isLastPair_seek_of_isFirstPair horder hmoment hbefore
        (isFirstPair_seek_zero horder (OrderedScalar.refl_of_le hduration).2 hlast)
      obtain ⟨hpos, hlt, hlow, hhigh⟩ := exists_keyframe_at horder hstart hfinal hsame
      have hplaced := List.getElem?_eq_getElem (hlt.trans_le (Nat.sub_le _ 1))
      rw [Program.keyTime_eq hplaced] at hlow hhigh
      refine ⟨Playback.shown_congr ?_, hbefore, _, _, hpos, by omega, hplaced, hlow, hhigh⟩
      rw [Playback.cursor_after_duration hmany hduration]
      exact hfinal.eq hlater
  · refine .inl (Playback.shown_congr ?_)
    have hzero : ∀ moment cursor, program.seekFrom moment cursor = 0 := fun moment cursor ↦
      Nat.eq_zero_of_le_zero ((seek_le _ cursor).trans (by omega))
    rw [hzero, hzero]

/-- At the end of the first pause a program that was not shown before is still at its first target,
and one that comes from the end is on the way to the second one. Nothing else is shown. -/
theorem compile_shows_alike_passage : ∃ program early late,
    Program.compile "Passage" (slideCell 4) (passage 4) 1 = .ok program ∧
    program.shownAfter [] 1 false = .ok early ∧ early.targetIndex = 0 ∧
    program.shownAfter [(program.duration, false)] 1 false = .ok late ∧ late.targetIndex = 1 ∧
    ∀ calls, program.shownAfter calls 1 false = .ok early ∨
      program.shownAfter calls 1 false = .ok late := by
  obtain ⟨program, before, kept, first, second, moving, hpassage, hkeyframes⟩ :=
    exists_passage_keyframes (by norm_num : (0 : ℝ) ≤ 4)
  have hcompiled := hpassage.compiled
  have hmany : 2 ≤ program.keyframes.length := by
    rw [hkeyframes.keyframes]
    exact Nat.le_add_left _ _
  have hduration := hkeyframes.duration
  have hmoment : playbackTime program.duration 1 false = 1 :=
    playbackTime_of_le (by linarith) zero_le_one (by linarith)
  obtain ⟨hfirst, hlast⟩ := hpassage.pairs hkeyframes
  obtain ⟨early, next, hearly, hnext, hearlyTarget⟩ :=
    Program.exists_shownAfter hcompiled hmany [] 1 false
  obtain ⟨late, later, hlate, hlater, hlateTarget⟩ :=
    Program.exists_shownAfter hcompiled hmany [(program.duration, false)] 1 false
  rw [hmoment] at hnext hlater
  refine ⟨program, early, late, hcompiled, hearly, ?_, hlate, ?_, fun calls ↦ ?_⟩
  · have hsecond : program.keyframes[program.seekFrom 1 0]? = some second := by
      rw [hfirst, hkeyframes.keyframes]
      rfl
    obtain rfl := Option.some.inj (hsecond.symm.trans hnext)
    exact hearlyTarget.trans hkeyframes.index.2
  · obtain ⟨place, hplace⟩ := Nat.exists_eq_add_of_le' hlast
    rw [hplace, hkeyframes.keyframes] at hlater
    exact hlateTarget.trans (hkeyframes.moves later (List.mem_of_getElem? hlater)).1
  · rw [← hearly, ← hlate]
    exact (compile_shows_alike hcompiled calls 1 false).imp_right And.left

end Toolpath
