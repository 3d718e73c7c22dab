import Toolpath.Scalar

/-!
Angles in radians and rows of axis values. `normalize` picks the representative of an angle in
`(-π, π]`. `follow` moves every axis value by whole turns next to its previous value, which keeps
a path free of full-turn jumps; `squaredDistance` compares two rows by shortest angles.
-/

set_option autoImplicit false
set_option relaxedAutoImplicit false

namespace Toolpath.Angle

variable {α : Type} [Scalar α]

/-- The angle reduced into `(-π, π]`. -/
def normalize (angle : α) : α :=
  let a := Scalar.remainder angle Scalar.fullTurn
  if a ≤ -Scalar.pi then a + Scalar.fullTurn
  else if Scalar.pi < a then a - Scalar.fullTurn
  else a

/-- The shortest signed rotation between two angles. -/
def difference (start stop : α) : α :=
  normalize (stop - start)

/-- The angle `value` moved by whole turns next to `previous`. -/
def nearest (value previous : α) : α :=
  if Scalar.isFinite previous then
    let turns := Scalar.round ((previous - value) / Scalar.fullTurn)
    value + turns * Scalar.two * Scalar.pi
  else value

/-- Every value reduced and moved next to the previous value at its place. A value without a
finite previous one is only reduced. -/
def follow : List α → List α → List α
  | [], _ => []
  | value :: values, [] => normalize value :: follow values []
  | value :: values, previous :: rest => nearest (normalize value) previous :: follow values rest

/-- The sum of the squared shortest angles between two rows, over the places that both have. -/
def squaredDistance (values previous : List α) : α :=
  (List.zipWith (fun a b ↦ Scalar.square (difference b a)) values previous).foldl (· + ·) 0

end Toolpath.Angle
