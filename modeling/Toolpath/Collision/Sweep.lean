import Toolpath.Program.Basic

/-!
Swept collision checks of a compiled program. Shapes stand on the planes of the groups; a shape has
the number of its plane among the planes of all groups, a tool shape the number of the tool centre
point of its group, and the environment the number after the last plane. The motion between two
keyframes is checked at states that are close enough to each other, and the collision of the
earliest pair of keyframes is reported. A state with faults does not show where the arm is and is
passed over.

What a shape is and when two shapes collide is up to the caller.
-/

set_option autoImplicit false
set_option relaxedAutoImplicit false

namespace Toolpath

/-- Tells whether two posed shapes collide. -/
abbrev Contact (α σ : Type) := Pose α → σ → Pose α → σ → Bool

structure Scene (σ : Type) where
  /-- Per group, one shape or none per plane. -/
  groups : List (List (Option σ))
  /-- Shapes of tools by tool name, as seen from the flange. -/
  tools : List (String × σ)

structure CollisionSettings (α σ : Type) where
  first : List Nat
  second : List Nat
  environment : Option σ
  /-- The plane that the environment moves with; it stands in the world where there is none. -/
  environmentPlane : Option Nat
  /-- The longest travel of a tool centre point between checked states, in millimetres. -/
  linearStep : α
  /-- The longest travel of an arm axis between checked states, in radians. -/
  angularStep : α

structure Collision (α : Type) where
  /-- The target that the cell was moving to. -/
  targetIndex : Nat
  /-- The numbers of the shapes, the smaller one first. -/
  shapes : Nat × Nat
  solutions : List (Solution α)

variable {α σ : Type} [Scalar α]

/-- Checks one set of shapes against another, with steps of 100 millimetres and an eighth of a turn,
and without an environment. -/
def CollisionSettings.ofSets (first second : List Nat) : CollisionSettings α σ :=
  ⟨first, second, none, none, 100.0, Scalar.pi / 4.0⟩

namespace Scene

/-- The shape on a plane of a group. -/
def planeShape? (scene : Scene σ) (group plane : Nat) : Option σ :=
  (scene.groups[group]?.bind (·[plane]?)).join

/-- The shapes on the planes of one solved group, each with its pose. The shape of the tool takes
the place of the tool centre point and stands on the flange. -/
def groupShapes (scene : Scene σ) (group : Group α) (index : Nat) (tool : Option String)
    (planes : List (Pose α)) : List (Option (Pose α × σ)) :=
  let toolShape : Option (Pose α × σ) := do
    let shape ← tool.bind fun name ↦ scene.tools.lookup name
    let flange ← planes[group.flangePlane]?
    return (flange, shape)
  planes.zipIdx.map fun (plane, place) ↦
    let own := (scene.planeShape? index place).map fun shape ↦ (plane, shape)
    if place + 1 = group.planeCount then toolShape.or own else own

/-- The environment with its pose. -/
def environmentShape (settings : CollisionSettings α σ) (planes : List (Pose α)) :
    Option (Pose α × σ) :=
  settings.environment.map fun shape ↦
    (((settings.environmentPlane.bind (planes[·]?))).getD 1, shape)

/-- All shapes by their numbers, each with its pose. -/
def posedShapes (scene : Scene σ) (cell : Cell α) (settings : CollisionSettings α σ)
    (target : Step α) (solutions : List (Solution α)) : List (Option (Pose α × σ)) :=
  let onGroups := (cell.groups.zip solutions).zipIdx.flatMap fun ((group, solution), index) ↦
    let tool := target.waypoints[index]?.map fun waypoint ↦ waypoint.target.tool.label.name
    scene.groupShapes group index tool solution.planes
  onGroups ++ [environmentShape settings (solutions.flatMap Solution.planes)]

end Scene

namespace CollisionSettings

/-- The pairs of shapes in the order in which they are checked. -/
def pairs (settings : CollisionSettings α σ) : List (Nat × Nat) :=
  settings.first.flatMap fun a ↦ settings.second.map fun b ↦ (a, b)

/-- How many states the motion between two keyframes is checked in. -/
def divisions (settings : CollisionSettings α σ) (cell : Cell α) (previous next : Step α) : Nat :=
  ((previous.waypoints.zip next.waypoints).zipIdx.flatMap fun ((a, b), group) ↦
    let travel := a.solution.tcp.distance b.solution.tcp
    let turn := Scalar.maximum (((a.solution.joints.zip b.solution.joints).take
      (cell.armAxisCount group)).map fun (x, y) ↦ Scalar.abs (x - y))
    [if 0 < settings.linearStep then Scalar.ceilNat (travel / settings.linearStep) else 0,
      if 0 < settings.angularStep then Scalar.ceilNat (turn / settings.angularStep) else 0]).foldl
    max 1

end CollisionSettings

/-- The parties of a collision check. -/
structure CollisionCheck (α σ : Type) where
  cell : Cell α
  scene : Scene σ
  settings : CollisionSettings α σ
  contact : Contact α σ

namespace CollisionCheck

/-- Whether the shapes of a pair are two, are both there and collide. -/
def collides (check : CollisionCheck α σ) (shapes : List (Option (Pose α × σ)))
    (pair : Nat × Nat) : Bool :=
  match shapes[pair.1]?.join, shapes[pair.2]?.join with
  | some (poseA, a), some (poseB, b) => pair.1 != pair.2 && check.contact poseA a poseB b
  | _, _ => false

/-- The first pair of shapes that collides in a state of the cell moving to `target`. -/
def collision? (check : CollisionCheck α σ) (target : Step α) (solutions : List (Solution α)) :
    Option (Collision α) :=
  let shapes := check.scene.posedShapes check.cell check.settings target solutions
  (check.settings.pairs.find? (check.collides shapes)).map fun (a, b) ↦
    ⟨target.index, (min a b, max a b), solutions⟩

/-- The state number `number` of the motion between two keyframes; the first keyframe has the
number zero. -/
def state? (check : CollisionCheck α σ) (previous next : Step α) (divisions number : Nat)
    (joints : List (List α)) : Option (List (Solution α)) :=
  let solved :=
    if number = 0 then some previous.solutions
    else
      (check.cell.solve (next.between previous check.cell (.ofParts number divisions))
        (some joints)).toOption
  solved.filter (·.all (·.faults.isEmpty))

/-- Checks `count` states from the number `number` on, each solved from the last one without
faults. -/
def scan (check : CollisionCheck α σ) (previous next : Step α) (divisions : Nat) :
    Nat → Nat → List (List α) → Option (Collision α)
  | 0, _, _ => none
  | count + 1, number, joints =>
    match check.state? previous next divisions number joints with
    | none => scan check previous next divisions count (number + 1) joints
    | some solutions =>
      match check.collision? next solutions with
      | some collision => some collision
      | none =>
        scan check previous next divisions count (number + 1) (solutions.map Solution.joints)

/-- The first collision on the way between two keyframes, including the former one where the timeline
starts with it. -/
def pair? (check : CollisionCheck α σ) (previous next : Step α) (isFirst : Bool) :
    Option (Collision α) :=
  let divisions := check.settings.divisions check.cell previous next
  if isFirst then check.scan previous next divisions (divisions + 1) 0 previous.joints
  else check.scan previous next divisions divisions 1 previous.joints

/-- The collision of the earliest pair of neighbouring keyframes that has one. -/
def laterPairs? (check : CollisionCheck α σ) : List (Step α) → Option (Collision α)
  | previous :: next :: rest =>
    match check.pair? previous next false with
    | some collision => some collision
    | none => laterPairs? check (next :: rest)
  | _ => none

/-- The earliest collision of a timeline. A timeline of one keyframe is checked there. -/
def earliest? (check : CollisionCheck α σ) : List (Step α) → Option (Collision α)
  | [] => none
  | [only] => check.collision? only only.solutions
  | previous :: next :: rest =>
    match check.pair? previous next true with
    | some collision => some collision
    | none => check.laterPairs? (next :: rest)

end CollisionCheck

/-- The earliest collision along the timeline of a program. -/
def Program.collision? (program : Program α) (scene : Scene σ) (settings : CollisionSettings α σ)
    (contact : Contact α σ) : Option (Collision α) :=
  CollisionCheck.earliest? ⟨program.cell, scene, settings, contact⟩ program.keyframes

end Toolpath
