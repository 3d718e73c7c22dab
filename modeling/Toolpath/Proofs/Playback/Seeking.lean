import Mathlib.Data.Nat.Basic
import Mathlib.Order.Basic
import Toolpath.Playback

/-!
The search for the keyframe around a moment, for any comparison of times. `advance` passes the
keyframes that are earlier than the moment (`lt_time_of_lt_advance`) and `retreat` goes back over
those that are later (`time_lt_of_retreat_le`); each says where it stops. From wherever the search
starts it ends at a keyframe with another one before it (`exists_seek_eq`).
-/

set_option autoImplicit false
set_option relaxedAutoImplicit false

namespace Toolpath

variable {α : Type} [Scalar α] {times : Nat → α} {time : α}

/-! ### Onwards -/

theorem le_advance (count : Nat) : ∀ cursor, cursor ≤ advance times time count cursor := by
  induction count with
  | zero => exact fun cursor ↦ le_rfl
  | succ count ih =>
    intro cursor
    rw [advance]
    split_ifs
    · exact (Nat.le_succ cursor).trans (ih (cursor + 1))
    · exact le_rfl

theorem advance_le (count : Nat) : ∀ cursor, advance times time count cursor ≤ cursor + count := by
  induction count with
  | zero => exact fun cursor ↦ le_rfl
  | succ count ih =>
    intro cursor
    rw [advance]
    split_ifs
    · have hle := ih (cursor + 1)
      omega
    · omega

/-- Whatever is passed on the way is earlier than the moment. -/
theorem lt_time_of_lt_advance {count : Nat} : ∀ {cursor place : Nat}, cursor ≤ place →
    place < advance times time count cursor → times place < time := by
  induction count with
  | zero => exact fun hle hlt ↦ absurd hlt (not_lt.mpr hle)
  | succ count ih =>
    intro cursor place hle hlt
    rw [advance] at hlt
    split_ifs at hlt with hearlier
    · by_cases hhere : place = cursor
      · exact hhere ▸ hearlier
      · exact ih (by omega) hlt
    · exact absurd hlt (not_lt.mpr hle)

/-- The search onwards stops at a keyframe that is not earlier than the moment, or when it is out of
places. -/
theorem not_lt_time_advance {count : Nat} : ∀ {cursor : Nat},
    advance times time count cursor < cursor + count →
      ¬ times (advance times time count cursor) < time := by
  induction count with
  | zero => exact fun hlt ↦ absurd hlt (lt_irrefl _)
  | succ count ih =>
    intro cursor hlt
    rw [advance] at hlt ⊢
    split_ifs at hlt ⊢ with hearlier
    · exact ih (by omega)
    · exact hearlier

theorem advance_eq {cursor : Nat} (h : ¬ times cursor < time) (count : Nat) :
    advance times time count cursor = cursor := by
  cases count with
  | zero => rfl
  | succ count => rw [advance, if_neg h]

/-! ### Backwards -/

theorem retreat_le (cursor : Nat) : retreat times time cursor ≤ cursor := by
  fun_induction retreat times time cursor with
  | case1 cursor _ ih => exact ih.trans (Nat.le_succ _)
  | case2 => exact le_rfl
  | case3 => exact le_rfl

theorem one_le_retreat {cursor : Nat} (h : 1 ≤ cursor) : 1 ≤ retreat times time cursor := by
  fun_induction retreat times time cursor with
  | case1 cursor _ ih => exact ih (Nat.succ_pos cursor)
  | case2 => exact h
  | case3 => exact h

/-- Whatever is passed on the way back is later than the moment. -/
theorem time_lt_of_retreat_le {cursor place : Nat} (h : retreat times time cursor ≤ place)
    (hlt : place < cursor) : time < times place := by
  fun_induction retreat times time cursor with
  | case1 cursor hlater ih =>
    by_cases hhere : place = cursor + 1
    · exact hhere ▸ hlater
    · exact ih h (by omega)
  | case2 => omega
  | case3 => omega

/-- The search backwards stops behind a keyframe that is not later than the moment, or at the first
pair. -/
theorem not_time_lt_retreat {cursor : Nat} (h : 1 < retreat times time cursor) :
    ¬ time < times (retreat times time cursor - 1) := by
  fun_induction retreat times time cursor with
  | case1 cursor _ ih => exact ih h
  | case2 cursor hlater => exact hlater
  | case3 cursor hfew => exact absurd (by omega) (hfew (cursor - 2))

theorem retreat_eq {cursor : Nat} (h : ¬ time < times (cursor - 1)) :
    retreat times time cursor = cursor := by
  by_contra hne
  have hlt := lt_of_le_of_ne (retreat_le cursor) hne
  exact h (time_lt_of_retreat_le (Nat.le_sub_one_of_lt hlt) (by omega))

/-- A search that does not go back at all. -/
theorem not_time_lt_of_retreat_eq {cursor : Nat} (h : retreat times time cursor = cursor)
    (hmany : 1 < cursor) : ¬ time < times (cursor - 1) := by
  have hstop := not_time_lt_retreat (h.symm ▸ hmany : 1 < retreat times time cursor)
  rwa [h] at hstop

/-! ### From any place -/

theorem one_le_seek {last : Nat} (hlast : 1 ≤ last) (cursor : Nat) :
    1 ≤ seek times last time cursor := by
  refine one_le_retreat (le_trans ?_ (le_advance _ _))
  omega

theorem seek_le (last cursor : Nat) : seek times last time cursor ≤ last := by
  refine (retreat_le _).trans ((advance_le _ _).trans ?_)
  omega

/-- The search ends at a keyframe that has another one before it. -/
theorem exists_seek_eq (times : Nat → α) (time : α) {last : Nat} (hlast : 1 ≤ last)
    (cursor : Nat) :
    ∃ before, seek times last time cursor = before + 1 ∧ before + 1 ≤ last := by
  have hone : 1 ≤ seek times last time cursor := one_le_seek hlast cursor
  have hle : seek times last time cursor ≤ last := seek_le last cursor
  exact ⟨seek times last time cursor - 1, by omega, by omega⟩

end Toolpath
