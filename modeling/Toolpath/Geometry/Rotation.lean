import Toolpath.Geometry.Vec3

/-!
Rotations of space as unit quaternions `w + i·𝐢 + j·𝐣 + k·𝐤`. `apply` rotates a vector, the product
composes, `basis` gives the rotation matrix. `slerp?` walks from one rotation to another at
constant speed and on the shorter way; between opposite rotations there is no such walk.
-/

set_option autoImplicit false
set_option relaxedAutoImplicit false

namespace Toolpath

structure Rotation (α : Type) where
  w : α
  i : α
  j : α
  k : α
  deriving DecidableEq, Repr

namespace Rotation

variable {α : Type} [Scalar α]

instance : One (Rotation α) := ⟨⟨1, 0, 0, 0⟩⟩

instance : Mul (Rotation α) :=
  ⟨fun p q ↦
    { w := p.w * q.w - p.i * q.i - p.j * q.j - p.k * q.k
      i := p.w * q.i + p.i * q.w + p.j * q.k - p.k * q.j
      j := p.w * q.j - p.i * q.k + p.j * q.w + p.k * q.i
      k := p.w * q.k + p.i * q.j - p.j * q.i + p.k * q.w }⟩

instance : Neg (Rotation α) := ⟨fun q ↦ ⟨-q.w, -q.i, -q.j, -q.k⟩⟩

def axis (q : Rotation α) : Vec3 α :=
  ⟨q.i, q.j, q.k⟩

def inverse (q : Rotation α) : Rotation α :=
  ⟨q.w, -q.i, -q.j, -q.k⟩

def apply (q : Rotation α) (v : Vec3 α) : Vec3 α :=
  let t := (q.axis.cross v).scale Scalar.two
  t.scale q.w + q.axis.cross t + v

/-- The images of the three axes. -/
def basis (q : Rotation α) : Basis α :=
  let ww := q.w * q.w
  let ii := q.i * q.i
  let jj := q.j * q.j
  let kk := q.k * q.k
  let ij := q.i * q.j * Scalar.two
  let wk := q.w * q.k * Scalar.two
  let wj := q.w * q.j * Scalar.two
  let ik := q.i * q.k * Scalar.two
  let jk := q.j * q.k * Scalar.two
  let wi := q.w * q.i * Scalar.two
  { x := ⟨ww + ii - jj - kk, wk + ij, ik - wj⟩
    y := ⟨ij - wk, ww - ii + jj - kk, wi + jk⟩
    z := ⟨wj + ik, jk - wi, ww - ii - jj + kk⟩ }

/-- The rotation about a unit vector. -/
def about (direction : Vec3 α) (angle : α) : Rotation α :=
  let half := angle / Scalar.two
  let s := Scalar.sin half
  ⟨Scalar.cos half, direction.x * s, direction.y * s, direction.z * s⟩

def aboutX (angle : α) : Rotation α :=
  about Vec3.xAxis angle

def aboutY (angle : α) : Rotation α :=
  about Vec3.yAxis angle

def aboutZ (angle : α) : Rotation α :=
  about Vec3.zAxis angle

/-- A rotation about X, then about the fixed Y, then about the fixed Z axis, in radians. -/
def ofRollPitchYaw (roll pitch yaw : α) : Rotation α :=
  let sr := Scalar.sin (roll / Scalar.two)
  let cr := Scalar.cos (roll / Scalar.two)
  let sp := Scalar.sin (pitch / Scalar.two)
  let cp := Scalar.cos (pitch / Scalar.two)
  let sy := Scalar.sin (yaw / Scalar.two)
  let cy := Scalar.cos (yaw / Scalar.two)
  { w := cr * cp * cy + sr * sp * sy
    i := sr * cp * cy - cr * sp * sy
    j := cr * sp * cy + sr * cp * sy
    k := cr * cp * sy - sr * sp * cy }

/-- Roll, pitch and yaw of the rotation. Where the X axis stands upright the yaw is zero. -/
def rollPitchYaw (q : Rotation α) : α × α × α :=
  let m := q.basis
  if Scalar.abs m.x.z < 1 then
    let pitch := -Scalar.arctan2 m.x.z (Scalar.sqrt ((1 - m.x.z) * (1 + m.x.z)))
    let c := Scalar.cos pitch
    (Scalar.arctan2 (m.y.z / c) (m.z.z / c), pitch, Scalar.arctan2 (m.x.y / c) (m.x.x / c))
  else if m.x.z ≤ -1 then (Scalar.arctan2 m.y.x m.z.x, Scalar.quarterTurn, 0)
  else (Scalar.arctan2 (-m.y.x) (-m.z.x), -Scalar.quarterTurn, 0)

def dot (p q : Rotation α) : α :=
  p.i * q.i + p.j * q.j + p.k * q.k + p.w * q.w

def scale (q : Rotation α) (factor : α) : Rotation α :=
  ⟨q.w * factor, q.i * factor, q.j * factor, q.k * factor⟩

def add (p q : Rotation α) : Rotation α :=
  ⟨p.w + q.w, p.i + q.i, p.j + q.j, p.k + q.k⟩

/-- The unit quaternion in the direction of a quaternion. -/
def normalized (q : Rotation α) : Rotation α :=
  let n := Scalar.sqrt (q.dot q)
  ⟨q.w / n, q.i / n, q.j / n, q.k / n⟩

/-- Below this sine the angle between two quaternions cannot be divided by. -/
def slerpTolerance : α := 1.0e-9

/-- The rotation at the share `s` of the arc from `p` to `q`, for an angle of at most a quarter turn
between the quaternions. -/
def slerpArc? (p q : Rotation α) (s : α) : Option (Rotation α) :=
  let c := p.dot q
  if 1 ≤ c then some p
  else
    let angle := Scalar.arccos c
    let sine := Scalar.sqrt (1 - c * c)
    if sine ≤ slerpTolerance then none
    else
      let start := p.scale (Scalar.sin ((1 - s) * angle) / sine)
      let stop := q.scale (Scalar.sin (s * angle) / sine)
      some (add stop start)

/-- The rotation at the share `s` of the shorter way from `p` to `q`. -/
def slerp? (p q : Rotation α) (s : α) : Option (Rotation α) :=
  if p.dot q < 0 then slerpArc? p (-q) s else slerpArc? p q s

/-- The rotation at the share `s` of the chord from `p` to `q`. -/
def nlerp (p q : Rotation α) (s : α) : Rotation α :=
  (add (p.scale (1 - s)) (q.scale s)).normalized

end Rotation

end Toolpath
