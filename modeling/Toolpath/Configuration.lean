/-!
Which of the analytic solutions of an arm is meant: a set of flags, written as bits. Three flags
name one of eight branches; the flag `undefined` says that the branch of a pose cannot be trusted.
Bits without a name are kept.
-/

set_option autoImplicit false
set_option relaxedAutoImplicit false

namespace Toolpath

structure Configuration where
  bits : UInt8
  deriving DecidableEq, Repr

namespace Configuration

def empty : Configuration := ⟨0⟩

def shoulder : Configuration := ⟨1⟩

def elbow : Configuration := ⟨2⟩

def wrist : Configuration := ⟨4⟩

/-- The pose was reached near a singular position. -/
def undefined : Configuration := ⟨8⟩

instance : Inhabited Configuration := ⟨empty⟩

/-- All flags of `other` are set. -/
def includes (c other : Configuration) : Bool :=
  c.bits &&& other.bits == other.bits

/-- The configuration of an analytic branch, numbered from 0 to 7. -/
def ofBranch (branch : Nat) : Configuration :=
  ⟨UInt8.ofNat (branch % 8)⟩

/-- The analytic branch, whatever the other flags say. -/
def branch (c : Configuration) : Nat :=
  c.bits.toNat % 8

def isUndefined (c : Configuration) : Bool :=
  c.includes undefined

/-- The flags that have a name, with their names. -/
def named : List (Configuration × String) :=
  [(shoulder, "SHOULDER"), (elbow, "ELBOW"), (wrist, "WRIST")]

def toText (c : Configuration) : String :=
  if c.isUndefined then "Undefined"
  else if c = empty then "None"
  else " | ".intercalate ((named.filter fun (flag, _) ↦ c.includes flag).map Prod.snd)

end Configuration

end Toolpath
