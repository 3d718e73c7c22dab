import Toolpath.Attribute.Naming
import Toolpath.Program.Report

/-!
What is done to the authored targets before any motion is solved: external values are fitted to the
mechanisms, the first target becomes a joint target, linear motions lose their forced
configuration, and attributes get their names. Each part reports what it changed.
-/

set_option autoImplicit false
set_option relaxedAutoImplicit false

namespace Toolpath

variable {α : Type} [Scalar α]

/-- Whether the frames of all targets can be placed. -/
def checkAllFrames (cell : Cell α) (steps : List (Step α)) : Except CouplingError Unit :=
  steps.forM fun step ↦ cell.checkFrames step.targets

/-- One external value per external axis of the group. -/
def fitExternal (cell : Cell α) (group : Nat) (target : Target α) : Target α :=
  target.withExternal (resize (cell.externalCount group) target.external)

/-- How many targets have too many or too few external values. -/
def misfitCount (cell : Cell α) (steps : List (Step α)) : Nat :=
  (steps.map fun step ↦ (step.targets.zipIdx.filter fun (target, group) ↦
    target.external.length != cell.externalCount group).length).foldr (· + ·) 0

def fitExternals (cell : Cell α) (steps : List (Step α)) : List (Step α) × List (Warning α) :=
  let misfits := misfitCount cell steps
  (steps.map (·.mapTargets (fitExternal cell)),
    if misfits = 0 then [] else [.externalsResized misfits])

/-- A Cartesian target as the joint target that it was solved to. -/
def anchorTarget (cell : Cell α) (group : Nat) (target : Target α) (solution : Solution α) :
    Target α :=
  let axes := cell.armAxisCount group
  if target.isCartesian then
    (target.toJoints (solution.joints.take axes)).withExternal (solution.joints.drop axes)
  else target

/-- The first step as a start in joints: solved without a previous position, and every Cartesian
target replaced by the position that it was solved to. -/
def anchor (cell : Cell α) (first : Step α) :
    Except (StructureError α) (Step α × List (Warning α)) := do
  let solutions ← cell.solve first.targets none
  let targets := (first.targets.zip solutions).zipIdx.map fun ((target, solution), group) ↦
    anchorTarget cell group target solution
  let warnings := first.targets.zipIdx.filterMap fun (target, group) ↦
    if target.isCartesian then some (.firstTargetToJoints group) else none
  return ((first.withTargets targets).withSolutions solutions none, warnings)

/-- The defaults that stand in for a tool or a speed that was not set. -/
def defaultWarnings (steps : List (Step α)) : List (Warning α) :=
  let targets := steps.flatMap Step.targets
  let tool : Tool α := .default
  let speed : Speed α := .default
  (if targets.any (·.tool.label.key == tool.label.key) then [.defaultTool tool.label.name]
    else []) ++
  (if targets.any (·.speed.label.key == speed.label.key) then
    [.defaultSpeed speed.label.name speed.translation] else [])

/-- Whether the target forces a configuration that a linear motion does not heed. -/
def hasIdleConfiguration (target : Target α) : Bool :=
  target.isLinear && target.configuration?.isSome

def clearConfigurations (steps : List (Step α)) : List (Step α) × List (Warning α) :=
  (steps.map (·.mapTargets fun _ target ↦
      if hasIdleConfiguration target then target.withConfiguration none else target),
    steps.flatMap fun step ↦ step.targets.zipIdx.filterMap fun (target, group) ↦
      if hasIdleConfiguration target then some (.configurationIgnored step.index group) else none)

/-- The distinct attributes of all targets in the order of their first use. -/
def listAttributes (steps : List (Step α)) : List (Attribute α) :=
  distinctBy Attribute.id (steps.flatMap fun step ↦ step.targets.flatMap Target.attributes)

/-- Names the attributes of all targets and puts the new names into the targets. -/
def nameAttributes (steps : List (Step α)) :
    List (Step α) × List (Attribute α) × List (Warning α) :=
  let listing := listAttributes steps
  let naming := Naming.ofListing listing
  (steps.map (·.mapTargets fun _ ↦ Target.relabel naming.relabelling),
    listing.map (Attribute.relabel naming.relabelling),
    naming.renamings.reverse.map fun r ↦ .renamed r.typeName r.name r.newName)

/-- The tools in use with the groups that use them, each pair once. -/
def toolUses (steps : List (Step α)) : List (Tool α × Nat) :=
  distinctBy (fun (tool, group) ↦ (tool.label.key, group))
    (steps.flatMap fun step ↦ step.targets.zipIdx.map fun (target, group) ↦ (target.tool, group))

def payloadWarnings (cell : Cell α) (steps : List (Step α)) : List (Warning α) :=
  (toolUses steps).filterMap fun (tool, group) ↦
    if cell.payload group < tool.weight then
      some (.overweight tool.label.name tool.weight group (cell.payload group))
    else none

end Toolpath
