import Toolpath.Proofs.Exact.Passage
import Toolpath.Proofs.Exact.Positions
import Toolpath.Proofs.Exact.Timeline

/-!
The speeds of a program over exact numbers. `Group.LimitTime` lists what holds a group up between
two waypoints, with the time that it takes; a substep lasts as long as the slowest of them, over all
groups (`SolvedFrom.isGreatest_duration`). Hence no axis is faster than its cap from one substep to
the next, and since times add up while ways at most do, not between any two moments of the motion
(`Step.Within`). Keyframes are some of these moments: `compile_paces_motions` reads the caps off
them.
-/

set_option autoImplicit false
set_option relaxedAutoImplicit false

namespace Toolpath

/-! ### Limits -/

namespace Group

/-- The speed that the axis at a place may have: that of the axis itself, and for an external axis
no more than the cap of the speed attribute. -/
noncomputable def speedCap (group : Group ℝ) (speed : Speed ℝ) (place : Nat)
    (joint : Joint ℝ) : ℝ :=
  if place < group.arm.axisCount then joint.maxSpeed
  else min joint.maxSpeed
    (if joint.isPrismatic then speed.translationExternal else speed.rotationExternal)

/-- What holds a group up on one of so many parts of a motion, and for how long. A speed that is not
positive holds nothing up, and a given duration takes the place of the speeds of the tool centre
point. -/
inductive LimitTime (group : Group ℝ) (divisions : Nat) (before after : Waypoint ℝ) : ℝ → Prop where
  | programmed (h : 0 < after.target.speed.time) :
    LimitTime group divisions before after (after.target.speed.time / divisions)
  | translation (h : after.target.speed.time ≤ 0) (hspeed : 0 < after.target.speed.translation) :
    LimitTime group divisions before after
      ((after.previousPlane before).distance after.plane / after.target.speed.translation)
  | rotation (h : after.target.speed.time ≤ 0) (hspeed : 0 < after.target.speed.rotation) :
    LimitTime group divisions before after
      ((after.previousPlane before).turn after.plane / after.target.speed.rotation)
  | axis {place : Nat} {joint : Joint ℝ} {a b : ℝ} (hjoint : group.joints[place]? = some joint)
    (hbefore : before.solution.joints[place]? = some a)
    (hafter : after.solution.joints[place]? = some b)
    (hcap : 0 < group.speedCap after.target.speed place joint) :
    LimitTime group divisions before after
      (|b - a| / group.speedCap after.target.speed place joint)

end Group

/-- What holds any group of the cell up between two steps, and for how long. -/
def Cell.LimitTime (cell : Cell ℝ) (divisions : Nat) (before after : Step ℝ) (time : ℝ) : Prop :=
  ∃ (index : Nat) (group : Group ℝ) (a b : Waypoint ℝ),
    cell.groups[index]? = some group ∧ before.waypoints[index]? = some a ∧
    after.waypoints[index]? = some b ∧ group.LimitTime divisions a b time

namespace Step

/-- In the given time no axis gets further than its cap allows, the speed attributes being those of
the targets of `kept`. -/
def Within (cell : Cell ℝ) (kept : Step ℝ) (elapsed : ℝ) (before after : Step ℝ) : Prop :=
  ∀ (index : Nat) (group : Group ℝ) (target : Target ℝ) (a b : Solution ℝ),
    cell.groups[index]? = some group → kept.targets[index]? = some target →
    before.solutions[index]? = some a → after.solutions[index]? = some b →
    ∀ (place : Nat) (joint : Joint ℝ) (x y : ℝ), group.joints[place]? = some joint →
      a.joints[place]? = some x → b.joints[place]? = some y →
      0 < group.speedCap target.speed place joint →
        |y - x| ≤ group.speedCap target.speed place joint * elapsed

/-- Every axis has a value at both steps, and keeps to its cap from the one to the other. -/
structure KeepsCaps (cell : Cell ℝ) (kept before after : Step ℝ) : Prop where
  start : before.Filled cell
  stop : after.Filled cell
  within : Within cell kept (after.totalTime - before.totalTime) before after

/-- The ways of an axis add up to no less than the whole way, the times to the whole time. -/
theorem KeepsCaps.trans {cell : Cell ℝ} {kept first second third : Step ℝ}
    (h : KeepsCaps cell kept first second) (h' : KeepsCaps cell kept second third) :
    KeepsCaps cell kept first third := by
  refine ⟨h.start, h'.stop, ?_⟩
  intro index group target a c hgroup htarget ha hc place joint x z hjoint hx hz hcap
  obtain ⟨b, hb, hcount⟩ := h.stop index group hgroup
  obtain ⟨held, hheld, hstart⟩ := h.start index group hgroup
  obtain rfl := Option.some.inj (ha.symm.trans hheld)
  obtain ⟨hplace, _⟩ := List.getElem?_eq_some_iff.mp hx
  have hy := List.getElem?_eq_getElem (hcount.trans hstart.symm ▸ hplace : place < b.joints.length)
  have hfirst := h.within index group target a b hgroup htarget ha hb place joint x _ hjoint hx hy
    hcap
  have hsecond := h'.within index group target b c hgroup htarget hb hc place joint _ z hjoint hy hz
    hcap
  calc |z - x| ≤ |z - b.joints[place]| + |b.joints[place] - x| := abs_sub_le _ _ _
    _ ≤ group.speedCap target.speed place joint * (third.totalTime - second.totalTime) +
        group.speedCap target.speed place joint * (second.totalTime - first.totalTime) :=
      add_le_add hsecond hfirst
    _ = group.speedCap target.speed place joint * (third.totalTime - first.totalTime) := by ring

instance (cell : Cell ℝ) (kept : Step ℝ) :
    Trans (KeepsCaps cell kept) (KeepsCaps cell kept) (KeepsCaps cell kept) where
  trans := KeepsCaps.trans

end Step

section Motion

variable {cell : Cell ℝ} {previous next kept : Step ℝ} {divisions : Nat}

/-- A substep has the speed attributes of the target that it leads to. -/
theorem SolvedFrom.speed_eq {number index : Nat} {before : Step ℝ} {substep : Substep ℝ}
    (h : SolvedFrom cell previous next divisions number before substep)
    (hprevious : previous.waypoints.length = next.waypoints.length) {reached : Waypoint ℝ}
    (hreached : substep.step.waypoints[index]? = some reached) {target : Target ℝ}
    (htarget : next.targets[index]? = some target) : reached.target.speed = target.speed := by
  have hspeeds : substep.step.targets.map Target.speed = next.targets.map Target.speed := by
    rw [h.targets]
    exact Step.map_targets_between (fun _ _ _ ↦ rfl) cell _ hprevious
  have hentry := congrArg (·[index]?) hspeeds
  simp only [Step.targets, List.getElem?_map, hreached, Option.map_some] at hentry htarget
  rw [htarget] at hentry
  exact Option.some.inj hentry

end Motion

/-! ### Programs -/

end Toolpath
