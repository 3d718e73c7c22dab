import Toolpath.Program.Preparation

/-!
Putting new names into shared instances. An instance is never changed where it stands: one that gets
a new name is copied, and all its users are led to the copy. A group that has a member with another
place is built again around the new members, whether it has a new name itself or not, for its copy
still holds the old ones. What has become of a command is noted, so that each group is built only
once and all its users are led to the same group.

The key of a label is the place of the instance, and new instances get keys that none has. Renaming
where the instances stand, as `nameAttributes` does, comes to the same names and the same sharing.
-/

set_option autoImplicit false
set_option relaxedAutoImplicit false

namespace Toolpath

/-- Changes every entry in turn, each with the state that the one before it has left. -/
def thread {β γ σ : Type} (change : β → σ → γ × σ) : List β → σ → List γ × σ
  | [], state => ([], state)
  | entry :: rest, state =>
    let (changed, state) := change entry state
    let (others, state) := thread change rest state
    (changed :: others, state)

structure Renamer (α : Type) where
  /-- The labels of the copies with new names. -/
  copies : List (AttributeId × Label)
  /-- What the commands seen so far have become, by their keys. -/
  notes : List (Key × Command α)
  /-- The number of the next new instance. -/
  next : Nat

variable {α : Type}

namespace Renamer

/-- The label of the copy, the label itself where there is none. -/
def copyOf (renamer : Renamer α) (kind : AttributeKind) (label : Label) : Label :=
  (renamer.copies.lookup (kind, label.key)).getD label

def note (renamer : Renamer α) (key : Key) (result : Command α) : Renamer α :=
  { renamer with notes := (key, result) :: renamer.notes }

mutual

def command : Command α → Renamer α → Command α × Renamer α
  | .single instruction, renamer =>
    match renamer.notes.lookup instruction.label.key with
    | some result => (result, renamer)
    | none =>
      let result := .single
        { instruction with label := renamer.copyOf .command instruction.label }
      (result, renamer.note instruction.label.key result)
  | .group label runsBefore members, renamer =>
    match renamer.notes.lookup label.key with
    | some result => (result, renamer)
    | none =>
      let base := renamer.copyOf .command label
      let (changed, after) := commands members renamer
      if changed.map (·.label.key) = members.map (·.label.key) then
        let result := .group base runsBefore members
        (result, after.note label.key result)
      else
        let result := .group ⟨.authored after.next, base.name⟩ runsBefore changed
        (result, { after with next := after.next + 1 }.note label.key result)

def commands : List (Command α) → Renamer α → List (Command α) × Renamer α
  | [], renamer => ([], renamer)
  | first :: rest, renamer =>
    let (changed, renamer) := command first renamer
    let (others, renamer) := commands rest renamer
    (changed :: others, renamer)

end

def entry (entry : Attribute α) (renamer : Renamer α) : Attribute α × Renamer α :=
  match entry with
  | .tool t => (.tool { t with label := renamer.copyOf .tool t.label }, renamer)
  | .frame f => (.frame { f with label := renamer.copyOf .frame f.label }, renamer)
  | .speed s => (.speed { s with label := renamer.copyOf .speed s.label }, renamer)
  | .zone z => (.zone { z with label := renamer.copyOf .zone z.label }, renamer)
  | .command c =>
    let (changed, after) := command c renamer
    (.command changed, after)

def target (target : Target α) (renamer : Renamer α) : Target α × Renamer α :=
  let (changed, after) := match target.command with
    | none => (none, renamer)
    | some c =>
      let (changed, after) := command c renamer
      (some changed, after)
  ({ target with
      tool := { target.tool with label := renamer.copyOf .tool target.tool.label }
      frame := { target.frame with label := renamer.copyOf .frame target.frame.label }
      speed := { target.speed with label := renamer.copyOf .speed target.speed.label }
      zone := { target.zone with label := renamer.copyOf .zone target.zone.label }
      command := changed }, after)

def waypoint (waypoint : Waypoint α) (renamer : Renamer α) : Waypoint α × Renamer α :=
  let (changed, after) := target waypoint.target renamer
  ({ waypoint with target := changed }, after)

def step (step : Step α) (renamer : Renamer α) : Step α × Renamer α :=
  let (waypoints, after) := thread waypoint step.waypoints renamer
  ({ step with waypoints }, after)

/-- The copies for the new names, numbered from `start` on. -/
def ofNaming (naming : Naming) (start : Nat) : Renamer α :=
  { copies := naming.given.zipIdx.map fun ((id, name), place) ↦
      (id, ⟨.authored (start + place), name⟩)
    notes := []
    next := start + naming.given.length }

end Renamer

/-- The least number above those of all instances in use. -/
def freeKeyNumber (uses : List (Attribute α)) : Nat :=
  (uses.map fun entry ↦ match entry.label.key with
    | .builtin => 0
    | .authored number => number + 1).foldr max 0

/-- The steps and their listing with new names: copies are made for the new names, then the
attributes of the listing are led to their copies, then those of all targets. -/
def renameInstances (steps : List (Step α)) : List (Step α) × List (Attribute α) :=
  let listing := listAttributes steps
  let start := freeKeyNumber listing
  let (attributes, renamer) := thread Renamer.entry listing
    (.ofNaming (Naming.ofListing listing) start)
  ((thread Renamer.step steps renamer).1, attributes)

end Toolpath
