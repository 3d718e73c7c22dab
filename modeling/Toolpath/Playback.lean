import Toolpath.Program.Basic

/-!
Playback of a compiled program. A moment of the timeline lies between two neighbouring keyframes;
the state of the cell at that moment is solved from the targets between them. The cursor remembers
the later keyframe of the last pair, which makes the search for a moment nearby short.
-/

set_option autoImplicit false
set_option relaxedAutoImplicit false

namespace Toolpath

/-- The state of the cell at one moment. -/
structure Snapshot (α : Type) where
  solutions : List (Solution α)
  /-- The target that the cell is moving to. -/
  targetIndex : Nat
  time : α

structure Playback (α : Type) where
  cursor : Nat
  shown : Snapshot α

variable {α : Type} [Scalar α]

/-- The moment asked for, held inside the program. A moment that is no number is the start. -/
def playbackTime (duration time : α) (normalized : Bool) : α :=
  let time := if normalized then time * duration else time
  if time ≤ time then Scalar.clamp 0 (Scalar.larger duration 0) time else 0

/-- Moves the cursor on while the moment is later than its keyframe, `count` places at most. -/
def advance (times : Nat → α) (time : α) : Nat → Nat → Nat
  | 0, cursor => cursor
  | count + 1, cursor =>
    if times cursor < time then advance times time count (cursor + 1) else cursor

/-- Moves the cursor back while the moment is earlier than the keyframe before it; the first pair is
the last one tried. -/
def retreat (times : Nat → α) (time : α) : Nat → Nat
  | cursor + 2 => if time < times (cursor + 1) then retreat times time (cursor + 1) else cursor + 2
  | cursor => cursor

/-- The later keyframe of the pair around the moment, searched from the given place. There are
keyframes from 0 to `last`. -/
def seek (times : Nat → α) (last : Nat) (time : α) (cursor : Nat) : Nat :=
  let cursor := min (max cursor 1) last
  retreat times time (advance times time (last - cursor) cursor)

namespace Playback

/-- Nothing shown yet. -/
def start : Playback α :=
  ⟨0, ⟨[], 0, 0⟩⟩

/-- Moves the playback to a moment in seconds, or to a share of the duration. Where the state cannot
be solved the last one stays in view. -/
def animate (playback : Playback α) (program : Program α) (time : α) (normalized : Bool) :
    Playback α × Except (StructureError α) (Snapshot α) :=
  let time := playbackTime program.duration time normalized
  let keyframes := program.keyframes
  let finish (cursor index : Nat) (solved : Except (StructureError α) (List (Solution α))) :=
    match solved with
    | .error error => ({ playback with cursor }, .error error)
    | .ok solutions =>
      let shown : Snapshot α := ⟨solutions, index, time⟩
      (⟨cursor, shown⟩, .ok shown)
  match keyframes with
  | [] => (playback, .error .emptyProgram)
  | [only] => finish playback.cursor only.index (program.cell.solve only.targets none)
  | first :: _ =>
    let times place := (keyframes[place]?.map Step.totalTime).getD 0
    let cursor := seek times (keyframes.length - 1) time playback.cursor
    let previous := (keyframes[cursor - 1]?).getD first
    let next := (keyframes[cursor]?).getD first
    let targets := next.between previous program.cell ⟨time, previous.totalTime, next.totalTime⟩
    finish cursor next.index (program.cell.solve targets (some previous.joints))

end Playback

end Toolpath
