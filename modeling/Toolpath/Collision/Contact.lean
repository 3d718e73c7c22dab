import Toolpath.Collision.Solid
import Toolpath.Collision.Sweep
import Toolpath.Double.Scalar

/-!
Contact of solids in short numbers. Shapes and their poses are kept in 32 bits: every number is
rounded to the nearest short one before solids are compared.
-/

set_option autoImplicit false
set_option relaxedAutoImplicit false

namespace Toolpath

def shorten (x : Float) : Float :=
  x.toFloat32.toFloat

namespace Vec3

def shorten (v : Vec3 Float) : Vec3 Float :=
  ⟨Toolpath.shorten v.x, Toolpath.shorten v.y, Toolpath.shorten v.z⟩

end Vec3

namespace Pose

def shorten (p : Pose Float) : Pose Float :=
  ⟨p.position.shorten,
    ⟨Toolpath.shorten p.rotation.w, Toolpath.shorten p.rotation.i, Toolpath.shorten p.rotation.j,
      Toolpath.shorten p.rotation.k⟩⟩

end Pose

namespace Body

def shorten : Body Float → Body Float
  | ball radius => ball (Toolpath.shorten radius)
  | box half => box half.shorten
  | halfspace normal => halfspace normal.shorten

end Body

namespace Solid

def shorten (solid : Solid Float) : Solid Float :=
  ⟨solid.bodies.map fun (p, body) ↦ (p.shorten, body.shorten)⟩

/-- Whether two solids in the given poses touch or overlap, all numbers being short. -/
def touchesShort : Contact Float (Solid Float) := fun poseA a poseB b ↦
  touches poseA.shorten a.shorten poseB.shorten b.shorten

end Solid

end Toolpath
