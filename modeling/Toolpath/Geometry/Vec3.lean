import Toolpath.Scalar

/-!
Vectors of space and orthonormal bases. A `Basis` lists the images of the three axes, that is the
columns of a rotation matrix.
-/

set_option autoImplicit false
set_option relaxedAutoImplicit false

namespace Toolpath

structure Vec3 (α : Type) where
  x : α
  y : α
  z : α
  deriving DecidableEq, Repr

namespace Vec3

variable {α : Type} [Scalar α]

instance : Zero (Vec3 α) := ⟨⟨0, 0, 0⟩⟩

instance : Add (Vec3 α) := ⟨fun a b ↦ ⟨a.x + b.x, a.y + b.y, a.z + b.z⟩⟩

instance : Sub (Vec3 α) := ⟨fun a b ↦ ⟨a.x - b.x, a.y - b.y, a.z - b.z⟩⟩

instance : Neg (Vec3 α) := ⟨fun a ↦ ⟨-a.x, -a.y, -a.z⟩⟩

def scale (a : Vec3 α) (factor : α) : Vec3 α :=
  ⟨a.x * factor, a.y * factor, a.z * factor⟩

def dot (a b : Vec3 α) : α :=
  a.x * b.x + a.y * b.y + a.z * b.z

def cross (a b : Vec3 α) : Vec3 α :=
  ⟨a.y * b.z - a.z * b.y, a.z * b.x - a.x * b.z, a.x * b.y - a.y * b.x⟩

def normSq (a : Vec3 α) : α :=
  a.dot a

def norm (a : Vec3 α) : α :=
  Scalar.sqrt a.normSq

def xAxis : Vec3 α := ⟨1, 0, 0⟩

def yAxis : Vec3 α := ⟨0, 1, 0⟩

def zAxis : Vec3 α := ⟨0, 0, 1⟩

/-- The angle between two vectors, zero where one of them vanishes. -/
def angle (a b : Vec3 α) : α :=
  let (m, n) := (a.norm, b.norm)
  if m ≤ 0 ∨ n ≤ 0 then 0
  else Scalar.arccos (Scalar.clamp (-1) 1 (a.dot b / (m * n)))

/-- The point at the share `s` of the way from `a` to `b`. -/
def mix (a b : Vec3 α) (s : α) : Vec3 α :=
  b.scale s + a.scale (1 - s)

end Vec3

/-- The images of the axes under a rotation, the columns of its matrix. -/
structure Basis (α : Type) where
  x : Vec3 α
  y : Vec3 α
  z : Vec3 α
  deriving DecidableEq, Repr

namespace Basis

variable {α : Type} [Scalar α]

/-- The basis `b` in the coordinates of `a`: the transpose of `a` times `b`. -/
def relativeTo (b a : Basis α) : Basis α where
  x := ⟨a.x.dot b.x, a.y.dot b.x, a.z.dot b.x⟩
  y := ⟨a.x.dot b.y, a.y.dot b.y, a.z.dot b.y⟩
  z := ⟨a.x.dot b.z, a.y.dot b.z, a.z.dot b.z⟩

end Basis

end Toolpath
