import Toolpath.Collision.Sweep

/-!
The collision search of several workers. Every pair of neighbouring keyframes is a task with the
number of its later keyframe. A task checks its states one after the other; before each of them it
reads the best pair so far and gives up where that comes before its own. At a collision it takes
the lock, replaces the stored collision unless that is of an earlier pair, lowers the best pair to
its own, and stops.

A step of the search is one such action of one task. What a task reads may be out of date, hence the
state keeps all values that the best pair was lowered to.
-/

set_option autoImplicit false
set_option relaxedAutoImplicit false

namespace Toolpath

/-- The way between two neighbouring keyframes. -/
structure Stretch (α : Type) where
  previous : Step α
  next : Step α
  /-- Whether the timeline starts with it. -/
  isFirst : Bool
  /-- How many states it is checked in. -/
  divisions : Nat

/-- How far a task has come. -/
structure ScanPoint (α : Type) where
  /-- How many states are left. -/
  left : Nat
  /-- The number of the state that comes next. -/
  number : Nat
  /-- The axis values that it is solved from. -/
  joints : List (List α)

/-- What a task does next. -/
inductive TaskPhase (α : Type) where
  /-- The task has not begun. -/
  | waiting
  /-- Reads the best pair, if any state is left. -/
  | looking (point : ScanPoint α)
  /-- Solves and tests the next state; as many as the point says are left after it. -/
  | testing (point : ScanPoint α)
  /-- Takes the lock. -/
  | hitting (collision : Collision α)
  /-- Compares its pair with the stored one. -/
  | comparing (collision : Collision α)
  /-- Replaces what is stored. -/
  | storing (collision : Collision α)
  /-- Lowers the best pair. -/
  | lowering
  /-- Gives the lock back. -/
  | leaving
  /-- The task is over. -/
  | stopped

structure SearchState (α : Type) where
  /-- What the task of each pair does next. -/
  phase : Nat → TaskPhase α
  /-- What the best pair was lowered to, the present value first. -/
  lowered : List Nat
  /-- The stored collision with its pair. -/
  found : Option (Nat × Collision α)
  /-- The task that has the lock. -/
  holder : Option Nat

/-- What the workers search. -/
structure CollisionSearch (α σ : Type) where
  check : CollisionCheck α σ
  keyframes : List (Step α)
  workers : Nat

namespace TaskPhase

variable {α : Type}

/-- Whether a worker is at the task. -/
def isBusy : TaskPhase α → Bool
  | waiting => false
  | stopped => false
  | _ => true

end TaskPhase

namespace SearchState

variable {α : Type}

/-- No task has begun. -/
def start : SearchState α :=
  ⟨fun _ ↦ .waiting, [], none, none⟩

def enter (state : SearchState α) (pair : Nat) (phase : TaskPhase α) : SearchState α :=
  { state with phase := fun other ↦ if other = pair then phase else state.phase other }

/-- The values that the best pair can be read as; none is the one before any collision. -/
def readings (state : SearchState α) : List (Option Nat) :=
  none :: state.lowered.map some

/-- The least of the pair and the present best pair. -/
def best (state : SearchState α) (pair : Nat) : Nat :=
  (state.lowered.head?.map (min pair)).getD pair

end SearchState

namespace CollisionSearch

variable {α σ : Type} [Scalar α]

/-- The way that the task of a pair checks. -/
def stretch? (search : CollisionSearch α σ) : Nat → Option (Stretch α)
  | 0 => none
  | before + 1 =>
    match search.keyframes[before]?, search.keyframes[before + 1]? with
    | some previous, some next =>
      some ⟨previous, next, before == 0,
        search.check.settings.divisions search.check.cell previous next⟩
    | _, _ => none

/-- The way to a later keyframe starts where the one before it ended. -/
def startPoint (stretch : Stretch α) : ScanPoint α :=
  if stretch.isFirst then ⟨stretch.divisions + 1, 0, stretch.previous.joints⟩
  else ⟨stretch.divisions, 1, stretch.previous.joints⟩

/-- What comes after a state is solved and tested. -/
def tested (search : CollisionSearch α σ) (stretch : Stretch α) (point : ScanPoint α) :
    TaskPhase α :=
  match search.check.state? stretch.previous stretch.next stretch.divisions point.number
      point.joints with
  | none => .looking ⟨point.left, point.number + 1, point.joints⟩
  | some solutions =>
    match search.check.collision? stretch.next solutions with
    | some collision => .hitting collision
    | none => .looking ⟨point.left, point.number + 1, solutions.map Solution.joints⟩

/-- How many tasks have a worker. -/
def busyCount (search : CollisionSearch α σ) (state : SearchState α) : Nat :=
  (List.range search.keyframes.length).countP fun pair ↦ (state.phase pair).isBusy

/-- The next action of the task of a pair, which reads the best pair as `reading` if it reads it.
None where the task can do nothing. -/
def step (search : CollisionSearch α σ) (state : SearchState α) (pair : Nat)
    (reading : Option Nat) : Option (SearchState α) :=
  match search.stretch? pair with
  | none => none
  | some stretch =>
    match state.phase pair with
    | .waiting =>
      if search.busyCount state < search.workers then
        some (state.enter pair (.looking (startPoint stretch)))
      else none
    | .looking ⟨0, _, _⟩ => some (state.enter pair .stopped)
    | .looking ⟨left + 1, number, joints⟩ =>
      if reading ∈ state.readings then
        if reading.any (· < pair) then some (state.enter pair .stopped)
        else some (state.enter pair (.testing ⟨left, number, joints⟩))
      else none
    | .testing point => some (state.enter pair (search.tested stretch point))
    | .hitting collision =>
      if state.holder.isNone then
        some { state.enter pair (.comparing collision) with holder := some pair }
      else none
    | .comparing collision =>
      if state.found.all fun stored ↦ pair < stored.1 then
        some (state.enter pair (.storing collision))
      else some (state.enter pair .lowering)
    | .storing collision =>
      some { state.enter pair .lowering with found := some (pair, collision) }
    | .lowering =>
      some { state.enter pair .leaving with lowered := state.best pair :: state.lowered }
    | .leaving => some { state.enter pair .stopped with holder := none }
    | .stopped => none

/-- The state after actions of tasks in the given order, each with what it reads; none where a task
is asked for an action that it cannot do. -/
def runFrom (search : CollisionSearch α σ) :
    SearchState α → List (Nat × Option Nat) → Option (SearchState α)
  | state, [] => some state
  | state, (pair, reading) :: rest =>
    match search.step state pair reading with
    | none => none
    | some next => runFrom search next rest

def run (search : CollisionSearch α σ) (schedule : List (Nat × Option Nat)) :
    Option (SearchState α) :=
  search.runFrom .start schedule

end CollisionSearch

/-- The search of the timeline of a program. -/
def Program.collisionSearch {α σ : Type} (program : Program α) (scene : Scene σ)
    (settings : CollisionSettings α σ) (contact : Contact α σ) (workers : Nat) :
    CollisionSearch α σ :=
  ⟨⟨program.cell, scene, settings, contact⟩, program.keyframes, workers⟩

end Toolpath
