import Toolpath.Arm.Preset
import Toolpath.Double.Scalar
import Toolpath.Proofs.Motions
import Toolpath.Proofs.Playback.Seeking
import Toolpath.Proofs.Totality

/-!
Playback of a compiled program never fails. Every keyframe was solved, be it at the start, on the
way or before the motion was given up, so that its targets can be placed
(`Stages.placeable_keyframe`); between two keyframes nothing changes in the couplings, and the
cursor stands at a keyframe with another one before it. `compile_shows` puts this together for
every moment and for whatever was shown before.
-/

set_option autoImplicit false
set_option relaxedAutoImplicit false

namespace Toolpath

variable {α : Type} [Scalar α]

/-! ### What a playback shows -/

namespace Program

/-- The time of the keyframe at a place. -/
def keyTime (program : Program α) (place : Nat) : α :=
  (program.keyframes[place]?.map Step.totalTime).getD 0

/-- The keyframe that the search for a moment ends at, from the keyframe that it starts at. -/
def seekFrom (program : Program α) (moment : α) (cursor : Nat) : Nat :=
  seek program.keyTime (program.keyframes.length - 1) moment cursor

/-- The targets of the cell at a moment of the way from one keyframe to the next. -/
def targetsBetween (program : Program α) (moment : α) (previous next : Step α) :
    List (Target α) :=
  next.between previous program.cell ⟨moment, previous.totalTime, next.totalTime⟩

/-- What a program shows at a moment with the cursor at a keyframe: the only keyframe there is, or
the state of the cell on the way from the keyframe before to the one at the cursor. -/
inductive Shows (program : Program α) (moment : α) : Nat → Snapshot α → Prop where
  | still {cursor : Nat} {only : Step α} {solutions : List (Solution α)}
    (hkeyframes : program.keyframes = [only]) (hplaceable : program.cell.Placeable only.targets)
    (hsolve : program.cell.solve only.targets none = .ok solutions) :
    Shows program moment cursor ⟨solutions, only.index, moment⟩
  | moving {before : Nat} {previous next : Step α} {solutions : List (Solution α)}
    (hprevious : program.keyframes[before]? = some previous)
    (hnext : program.keyframes[before + 1]? = some next)
    (hplaceable : program.cell.Placeable (program.targetsBetween moment previous next))
    (hsolve : program.cell.solve (program.targetsBetween moment previous next)
      (some previous.joints) = .ok solutions) :
    Shows program moment (before + 1) ⟨solutions, next.index, moment⟩

end Program

namespace Playback

/-- The playback after it was moved to one moment after the other, each in seconds or as a share of
the duration. -/
def after (program : Program α) (calls : List (α × Bool)) : Playback α :=
  calls.foldl (fun playback call ↦ (playback.animate program call.1 call.2).1) start

variable {program : Program α} {time : α} {normalized : Bool}

/-- The only keyframe is shown as it is solved from nowhere. -/
theorem animate_still (playback : Playback α) {only : Step α} {solutions : List (Solution α)}
    (hkeyframes : program.keyframes = [only])
    (hsolve : program.cell.solve only.targets none = .ok solutions) :
    playback.animate program time normalized =
      (⟨playback.cursor, ⟨solutions, only.index, playbackTime program.duration time normalized⟩⟩,
        .ok ⟨solutions, only.index, playbackTime program.duration time normalized⟩) := by
  rw [animate, hkeyframes]
  simp only [hsolve]

/-- Between two keyframes the cell is solved from the former one, for the targets in between. -/
theorem animate_between (playback : Playback α) {before : Nat} {previous next : Step α}
    (hcursor : program.seekFrom (playbackTime program.duration time normalized) playback.cursor =
      before + 1)
    (hprevious : program.keyframes[before]? = some previous)
    (hnext : program.keyframes[before + 1]? = some next) :
    playback.animate program time normalized =
      match program.cell.solve (program.targetsBetween
        (playbackTime program.duration time normalized) previous next) (some previous.joints) with
      | .error error => ({ playback with cursor := before + 1 }, .error error)
      | .ok solutions =>
        (⟨before + 1, ⟨solutions, next.index, playbackTime program.duration time normalized⟩⟩,
          .ok ⟨solutions, next.index, playbackTime program.duration time normalized⟩) := by
  unfold animate
  dsimp only
  split
  · next hnil => rw [hnil] at hnext; cases hnext
  · next only hsingle => rw [hsingle] at hnext; cases hnext
  · next first _ _ =>
    have hseek : seek (fun place ↦ (program.keyframes[place]?.map Step.totalTime).getD 0)
        (program.keyframes.length - 1) (playbackTime program.duration time normalized)
        playback.cursor = before + 1 := hcursor
    simp only [hseek, Nat.add_sub_cancel, hprevious, hnext, Option.getD_some]
    rfl

end Playback

/-! ### Keyframes can be placed -/

namespace Stages

variable {cell : Cell α} {toolpaths : List (List (Target α))} {stepSize : α} {count : Nat}
  {first : Step α} {rest : List (Step α)} {solutions : List (Solution α)}
  {prepared : PreparedProgram α} {journey : Journey α}
  (h : Stages cell toolpaths stepSize count first rest solutions prepared journey)

include h

theorem placeable_first : cell.Placeable prepared.first.targets := by
  have hcouplings := h.prepares.couplings (h.length_waypoints first List.mem_cons_self)
  rw [List.map_cons, List.map_cons, List.cons.injEq] at hcouplings
  have hfit : ∀ group target, (fitExternal cell group target).coupling = target.coupling :=
    fun _ _ ↦ rfl
  refine (Cell.placeable_of_solve h.prepares.solve).congr ?_
  rw [hcouplings.1, Step.map_targets_mapTargets hfit]

/-- Whatever way a program ends, its keyframes can be placed. -/
theorem placeable_keyframe {keyframe : Step α} (hkeyframe : keyframe ∈ journey.keyframes) :
    cell.Placeable keyframe.targets := by
  rcases timeline_motions h.timeline with ⟨_, rfl⟩ | ⟨_, motions, hmotions, rfl⟩
  · obtain rfl := List.mem_singleton.mp hkeyframe
    exact h.placeable_first
  · rcases List.mem_append.mp hkeyframe with hstart | hlater
    · rw [targets_of_mem_startKeyframes _ keyframe hstart]
      exact h.placeable_first
    · obtain ⟨motion, hmotion, hmem⟩ := List.mem_flatMap.mp hlater
      obtain ⟨place, hplace⟩ := List.mem_iff_getElem?.mp hmotion
      obtain ⟨before, next, _, hnext, htravelled⟩ := hmotions.exists_travelled hplace
      obtain ⟨_, _, _, last, substep, _, hsolved, _, hwaypoints⟩ :=
        htravelled.exists_solvedFrom (h.length_waypoints_rest hnext) hmem
      rw [Step.targets, hwaypoints]
      exact Cell.placeable_of_solve hsolved.solve

theorem keyframes_ne_nil : journey.keyframes ≠ [] := by
  rcases timeline_motions h.timeline with ⟨_, rfl⟩ | ⟨_, motions, _, rfl⟩
  · exact List.cons_ne_nil _ _
  · exact List.append_ne_nil_of_left_ne_nil (startKeyframes_ne_nil prepared.first) _

end Stages

/-! ### Programs -/

namespace Program

variable {program : Program α} {time : α} {normalized : Bool}

/-- Between keyframes that can be placed the cell can be placed. -/
theorem placeable_targetsBetween
    (hplaceable : ∀ keyframe ∈ program.keyframes, program.cell.Placeable keyframe.targets)
    {previous next : Step α} (hprevious : previous ∈ program.keyframes)
    (hnext : next ∈ program.keyframes) (moment : α) :
    program.cell.Placeable (program.targetsBetween moment previous next) := by
  have hlength : previous.waypoints.length = next.waypoints.length := by
    rw [← Step.length_targets, ← Step.length_targets, (hplaceable previous hprevious).count,
      (hplaceable next hnext).count]
  exact (hplaceable next hnext).congr (Step.couplings_between program.cell _ hlength)

/-- A program shows something at every moment where its keyframes can be placed. -/
theorem exists_shows (hnonempty : program.keyframes ≠ [])
    (hplaceable : ∀ keyframe ∈ program.keyframes, program.cell.Placeable keyframe.targets)
    (playback : Playback α) : ∃ snapshot,
      (playback.animate program time normalized).2 = .ok snapshot ∧
      program.Shows (playbackTime program.duration time normalized)
        (playback.animate program time normalized).1.cursor snapshot := by
  by_cases hsingle : program.keyframes.length = 1
  · obtain ⟨only, hkeyframes⟩ := List.length_eq_one_iff.mp hsingle
    have honly := hplaceable only (hkeyframes ▸ List.mem_singleton_self only)
    obtain ⟨solutions, hsolve⟩ := honly.exists_solve none
    rw [playback.animate_still hkeyframes hsolve]
    exact ⟨_, rfl, .still hkeyframes honly hsolve⟩
  · have hlast : 1 ≤ program.keyframes.length - 1 := by
      have hpos := List.length_pos_iff.mpr hnonempty
      omega
    obtain ⟨cursor, hcursor, hle⟩ := exists_seek_eq program.keyTime
      (playbackTime program.duration time normalized) hlast playback.cursor
    have hnext := List.getElem?_eq_getElem (l := program.keyframes) (i := cursor + 1) (by omega)
    have hprevious := List.getElem?_eq_getElem (l := program.keyframes) (i := cursor) (by omega)
    have hbetween := placeable_targetsBetween hplaceable (List.mem_of_getElem? hprevious)
      (List.mem_of_getElem? hnext) (playbackTime program.duration time normalized)
    obtain ⟨solutions, hsolve⟩ := hbetween.exists_solve (some (Step.joints _))
    rw [playback.animate_between hcursor hprevious hnext, hsolve]
    exact ⟨_, rfl, .moving hprevious hnext hbetween hsolve⟩

end Program

/-- Every moment of a compiled program can be shown, whatever was shown before: also a moment that
is negative, past the end, or no number, and also where the program was cut off at a fault. What is
shown is the only keyframe, or the cell between the keyframe at the cursor and the one before it,
solved for one target per group whose frames are valid and wait for each other in no loop. -/
theorem compile_shows {name : String} {cell : Cell α} {toolpaths : List (List (Target α))}
    {stepSize : α} {program : Program α}
    (h : Program.compile name cell toolpaths stepSize = .ok program) (calls : List (α × Bool))
    (time : α) (normalized : Bool) : ∃ snapshot,
      ((Playback.after program calls).animate program time normalized).2 = .ok snapshot ∧
      program.Shows (playbackTime program.duration time normalized)
        ((Playback.after program calls).animate program time normalized).1.cursor snapshot := by
  obtain ⟨count, first, rest, solutions, prepared, journey, hstages, rfl⟩ := exists_stages_eq h
  exact Program.exists_shows hstages.keyframes_ne_nil
    (fun _ hkeyframe ↦ hstages.placeable_keyframe hkeyframe) (Playback.after _ calls)

/-- A moment before the start, after one that is no number and one that is infinitely late. -/
theorem compile_shows_swaying : ∃ program : Program Float,
    Program.compile "Swaying" (.single .irb4600)
      [[.ofGoal (.joints (List.replicate 6 0.5)), .ofGoal (.joints (List.replicate 6 0.75))]] 1.0 =
        .ok program ∧
    ∃ snapshot,
      ((Playback.after program [(0.0 / 0.0, false), (1.0 / 0.0, true)]).animate program (-1.0)
        false).2 = .ok snapshot ∧
      program.Shows (playbackTime program.duration (-1.0) false)
        ((Playback.after program [(0.0 / 0.0, false), (1.0 / 0.0, true)]).animate program (-1.0)
          false).1.cursor snapshot := by
  obtain ⟨program, hprogram⟩ : ∃ program : Program Float,
      Program.compile "Swaying" (.single .irb4600)
        [[.ofGoal (.joints (List.replicate 6 0.5)),
          .ofGoal (.joints (List.replicate 6 0.75))]] 1.0 = .ok program :=
    exists_compile_uncoupled "Swaying" rfl (rfl : toolpathLength _ = .ok 2) (by decide)
      (by simp [Target.coupling, Target.ofGoal, Frame.default])
  exact ⟨program, hprogram, compile_shows hprogram [(0.0 / 0.0, false), (1.0 / 0.0, true)] (-1.0)
    false⟩

end Toolpath
