import Toolpath.Proofs.Exact.Arrival
import Toolpath.Proofs.Playback.History

/-!
The pair of keyframes that a moment is shown between. From wherever the search starts it ends at a
pair that surrounds the moment (`seek_surrounds`): it never leaves a keyframe at or after the moment
but for one that is nearer. The times of the keyframes need not rise for that; it is enough that the
moment is not before the first one and not after the last one. Between the keyframes of such a pair
the axes are interpolated and never continued (`Moment.between_interpolateAll`), so that no axis is
asked for a value outside of those that it has in the two keyframes (`Playback.animate_surrounds`).
-/

set_option autoImplicit false
set_option relaxedAutoImplicit false

namespace Toolpath

/-! ### The search -/

section Search

variable {times : Nat → ℝ} {time : ℝ} {last : Nat}

theorem le_time_advance (hstop : time ≤ times last) {cursor : Nat} (hcursor : cursor ≤ last) :
    time ≤ times (advance times time (last - cursor) cursor) := by
  have hend : advance times time (last - cursor) cursor ≤ cursor + (last - cursor) :=
    advance_le (last - cursor) cursor
  by_cases hlt : advance times time (last - cursor) cursor < last
  · exact not_lt.mp (not_lt_time_advance (by omega))
  · have hpassed : advance times time (last - cursor) cursor = last := by omega
    rwa [hpassed]

theorem time_le_retreat {cursor : Nat} (h : time ≤ times cursor) :
    time ≤ times (retreat times time cursor) := by
  by_cases hback : retreat times time cursor < cursor
  · exact (time_lt_of_retreat_le le_rfl hback).le
  · rwa [Nat.le_antisymm (retreat_le cursor) (not_lt.mp hback)]

theorem times_retreat_le (hstart : times 0 ≤ time) {cursor : Nat} (h : 1 ≤ cursor) :
    times (retreat times time cursor - 1) ≤ time := by
  by_cases hmany : 1 < retreat times time cursor
  · exact not_lt.mp (not_time_lt_retreat hmany)
  · have hfirst : retreat times time cursor = 1 :=
      Nat.le_antisymm (not_lt.mp hmany) (one_le_retreat h)
    rwa [hfirst, Nat.sub_self]

/-- The search ends at a pair of keyframes around the moment. -/
theorem seek_surrounds (hlast : 1 ≤ last) (hstart : times 0 ≤ time) (hstop : time ≤ times last)
    (cursor : Nat) :
    times (seek times last time cursor - 1) ≤ time ∧
      time ≤ times (seek times last time cursor) := by
  have hinside : min (max cursor 1) last ≤ last := Nat.min_le_right _ _
  have hfirst : 1 ≤ min (max cursor 1) last := by omega
  exact ⟨times_retreat_le hstart (hfirst.trans (le_advance _ _)),
    time_le_retreat (le_time_advance hstop hinside)⟩

end Search

/-! ### Values in between -/

/-- Every value lies between those that the two rows have at its place. Past the end of the first
row the value is that of the second one. -/
def Between (values start stop : List ℝ) : Prop :=
  values.length = stop.length ∧ ∀ (place : Nat) (value final : ℝ), values[place]? = some value →
    stop[place]? = some final → value ∈ Set.uIcc (start[place]?.getD final) final

namespace Moment

variable {m : Moment ℝ} (h : m.t ∈ Set.Icc m.start m.stop)

include h

theorem interpolate_mem_uIcc (a b : ℝ) : m.interpolate a b ∈ Set.uIcc a b := by
  rw [interpolate]
  split_ifs with hinstant
  · exact Set.right_mem_uIcc
  · obtain ⟨hlow, hhigh⟩ := h
    rw [isInstant, decide_eq_true_iff, Exact.abs_eq, not_lt] at hinstant
    have hlong : 0 < m.stop - m.start := by
      refine lt_of_le_of_ne (sub_nonneg.mpr (hlow.trans hhigh)) fun hzero ↦ ?_
      rw [← hzero, abs_zero] at hinstant
      norm_num [Scalar.epsilon] at hinstant
    have hshare : (m.t - m.start) / (m.stop - m.start) ∈ Set.Icc (0 : ℝ) 1 :=
      ⟨div_nonneg (sub_nonneg.mpr hlow) hlong.le, (div_le_one hlong).mpr (by linarith)⟩
    rw [← segment_eq_uIcc, segment_eq_image']
    exact ⟨_, hshare, congrArg (a + ·) (mul_comm _ _)⟩

/-- The axis values at a moment within its span are between those at the ends of the span. -/
theorem between_interpolateAll (start stop : List ℝ) :
    Between (m.interpolateAll start stop) start stop := by
  refine ⟨length_interpolateAll m start stop, ?_⟩
  fun_induction interpolateAll m start stop with
  | case1 => exact fun place value final hvalue ↦ by cases hvalue
  | case2 b bs ih =>
    rintro (- | place) value final hvalue hfinal
    · obtain rfl := Option.some.inj hvalue
      obtain rfl := Option.some.inj hfinal
      exact interpolate_mem_uIcc h b b
    · exact ih place value final hvalue hfinal
  | case3 a as b bs ih =>
    rintro (- | place) value final hvalue hfinal
    · obtain rfl := Option.some.inj hvalue
      obtain rfl := Option.some.inj hfinal
      exact interpolate_mem_uIcc h a b
    · exact ih place value final hvalue hfinal

end Moment

/-! ### Playback -/

namespace Program

/-- Two neighbouring keyframes around a moment of the program, told by the place of the later
one. -/
structure Surrounds (program : Program ℝ) (moment : ℝ) (cursor : Nat) (previous next : Step ℝ) :
    Prop where
  moment_mem : moment ∈ Set.Icc 0 program.duration
  one_le : 1 ≤ cursor
  le_last : cursor ≤ program.keyframes.length - 1
  previous_eq : program.keyframes[cursor - 1]? = some previous
  next_eq : program.keyframes[cursor]? = some next
  mem_span : moment ∈ Set.Icc previous.totalTime next.totalTime

end Program

/-- What a group is asked for on the way between two waypoints: no external axis for a value outside
of those that it has there, and off a straight line no axis of the arm either. -/
structure Target.StaysBetween (target : Target ℝ) (previous next : Waypoint ℝ) (armAxes : Nat) :
    Prop where
  external : Between target.external (previous.solution.joints.drop armAxes)
    (next.solution.joints.drop armAxes)
  joints : next.target.isLinear = false → ∃ values, target.goal = .joints values ∧
    Between values (previous.solution.joints.take armAxes) (next.solution.joints.take armAxes)

theorem Waypoint.staysBetween {m : Moment ℝ} (h : m.t ∈ Set.Icc m.start m.stop)
    (previous next : Waypoint ℝ) (armAxes : Nat) :
    (next.between previous armAxes m).StaysBetween previous next armAxes where
  external := m.between_interpolateAll h _ _
  joints hjoint := ⟨_, goal_between_joint hjoint previous armAxes m, m.between_interpolateAll h _ _⟩

theorem playbackTime_mem_Icc {duration : ℝ} (hduration : 0 ≤ duration) (time : ℝ)
    (normalized : Bool) : playbackTime duration time normalized ∈ Set.Icc 0 duration := by
  refine ⟨?_, playbackTime_le hduration time normalized⟩
  rw [playbackTime, larger_zero_eq hduration, if_pos le_rfl]
  generalize (if normalized then time * duration else time) = asked
  unfold Scalar.clamp
  split_ifs with hearly
  · exact le_rfl
  · exact hduration
  · exact not_lt.mp hearly

/-- Whatever the cursor was left at and whatever moment is asked for, the moment shown is within the
program and the pair of keyframes at the cursor surrounds it. The groups are then asked for axis
values between those of the two keyframes. Nothing is asked of the times of the other keyframes. -/
theorem Playback.animate_surrounds {program : Program ℝ} (hmany : 2 ≤ program.keyframes.length)
    (hstart : program.keyframes.head?.map Step.totalTime = some 0)
    (hstop : program.keyframes.getLast?.map Step.totalTime = some program.duration)
    (hduration : 0 ≤ program.duration) (playback : Playback ℝ) (time : ℝ) (normalized : Bool) :
    ∃ moment cursor previous next, moment = playbackTime program.duration time normalized ∧
      program.Surrounds moment cursor previous next ∧
      (playback.animate program time normalized).1.cursor = cursor ∧
      (playback.animate program time normalized).2 =
        (program.cell.solve (program.targetsBetween moment previous next)
          (some previous.joints)).map (fun solutions ↦ ⟨solutions, next.index, moment⟩) ∧
      ∀ (group : Nat) (target : Target ℝ),
        (program.targetsBetween moment previous next)[group]? = some target →
          ∃ start final, previous.waypoints[group]? = some start ∧
            next.waypoints[group]? = some final ∧
            target.StaysBetween start final (program.cell.armAxisCount group) := by
  have hlast : 1 ≤ program.keyframes.length - 1 := by omega
  have hfirstTime : program.keyTime 0 = 0 := by
    rw [Program.keyTime, ← List.head?_eq_getElem?, hstart, Option.getD_some]
  have hlastTime : program.keyTime (program.keyframes.length - 1) = program.duration := by
    rw [Program.keyTime, ← List.getLast?_eq_getElem?, hstop, Option.getD_some]
  have hmoment := playbackTime_mem_Icc hduration time normalized
  obtain ⟨before, hseek, hle⟩ := exists_seek_eq program.keyTime
    (playbackTime program.duration time normalized) hlast playback.cursor
  obtain ⟨hlow, hhigh⟩ := seek_surrounds hlast (hfirstTime.trans_le hmoment.1)
    (hmoment.2.trans_eq hlastTime.symm) playback.cursor
  have hprevious := List.getElem?_eq_getElem (l := program.keyframes) (i := before) (by omega)
  have hnext := List.getElem?_eq_getElem (l := program.keyframes) (i := before + 1) (by omega)
  rw [hseek, Nat.add_sub_cancel, Program.keyTime_eq hprevious] at hlow
  rw [hseek, Program.keyTime_eq hnext] at hhigh
  refine ⟨_, before + 1, _, _, rfl,
    ⟨hmoment, Nat.succ_pos before, hle, hprevious, hnext, hlow, hhigh⟩, ?_, ?_,
    fun group target htarget ↦ ?_⟩
  · exact (playback.cursor_animate hmany).trans hseek
  · rw [playback.animate_between hseek hprevious hnext]
    cases program.cell.solve _ _ <;> rfl
  · obtain ⟨final, start, hfinal, hbegun, rfl⟩ := Step.exists_between_of_getElem? htarget
    exact ⟨start, final, hbegun, hfinal, Waypoint.staysBetween ⟨hlow, hhigh⟩ start final _⟩

/-- A keyframe of one arm with all six axes at one value. -/
noncomputable def standingAt (index : Nat) (time value : ℝ) : Step ℝ :=
  ⟨index, [⟨standing value, { Solution.none with joints := List.replicate 6 value }, false, none⟩],
    time, 0, 0, 1⟩

/-- The keyframe in the middle is later than the end of the program. -/
noncomputable def overshooting : Program ℝ where
  name := "Overshooting"
  cell := .single restingArm
  targets := []
  keyframes := [standingAt 0 0 0, standingAt 1 (1 + 1) 1, standingAt 2 1 0]
  attributes := []
  warnings := []
  faults := []
  duration := 1
  stepSize := 1

theorem exists_waypoint_overshooting {keyframe : Step ℝ}
    (h : keyframe ∈ overshooting.keyframes) : ∃ waypoint, keyframe.waypoints = [waypoint] := by
  simp only [overshooting, List.mem_cons, List.not_mem_nil, or_false] at h
  rcases h with rfl | rfl | rfl <;> exact ⟨_, rfl⟩

/-- The end of a program whose keyframes are not in order, asked for past the end. -/
theorem animate_surrounds_overshooting : 2 ≤ overshooting.keyframes.length ∧
    overshooting.keyframes.head?.map Step.totalTime = some 0 ∧
    overshooting.keyframes.getLast?.map Step.totalTime = some overshooting.duration ∧
    0 ≤ overshooting.duration ∧
    ∃ moment cursor previous next, moment = playbackTime overshooting.duration 5 false ∧
      overshooting.Surrounds moment cursor previous next ∧
      ((⟨2, ⟨[], 0, 0⟩⟩ : Playback ℝ).animate overshooting 5 false).1.cursor = cursor ∧
      ∃ target start final,
        (overshooting.targetsBetween moment previous next)[0]? = some target ∧
        previous.waypoints = [start] ∧ next.waypoints = [final] ∧
        target.StaysBetween start final 6 := by
  have hmany : 2 ≤ overshooting.keyframes.length := Nat.le_succ 2
  have hduration : (0 : ℝ) ≤ overshooting.duration := zero_le_one
  obtain ⟨moment, cursor, previous, next, hmoment, hpair, hcursor, _, hbetween⟩ :=
    Playback.animate_surrounds hmany rfl rfl hduration ⟨2, ⟨[], 0, 0⟩⟩ 5 false
  obtain ⟨start, hstart⟩ := exists_waypoint_overshooting (List.mem_of_getElem? hpair.previous_eq)
  obtain ⟨final, hfinal⟩ := exists_waypoint_overshooting (List.mem_of_getElem? hpair.next_eq)
  have hbefore : previous.waypoints[0]? = some start := hstart ▸ List.getElem?_cons_zero
  have hafter : next.waypoints[0]? = some final := hfinal ▸ List.getElem?_cons_zero
  have htarget := Step.getElem?_between hafter hbefore overshooting.cell
    ⟨moment, previous.totalTime, next.totalTime⟩
  obtain ⟨begun, ended, hbegun, hended, hstays⟩ := hbetween 0 _ htarget
  obtain rfl := Option.some.inj (hbefore.symm.trans hbegun)
  obtain rfl := Option.some.inj (hafter.symm.trans hended)
  exact ⟨hmany, rfl, rfl, hduration, moment, cursor, previous, next, hmoment, hpair, hcursor, _,
    start, final, htarget, hstart, hfinal, hstays⟩

end Toolpath
