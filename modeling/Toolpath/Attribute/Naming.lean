import Toolpath.Attribute.Listing
import Toolpath.Decimal.Fixed

/-!
Names for the attributes of a program: none empty and none used twice. An attribute without a name
takes the name of its type with the next free number; of several attributes with one name the first
keeps it and the others take a free number behind it. Numbers have at least three digits. A name
that some attribute was given by its author is never generated for another one, wherever it stands
in the listing.

Among more candidates than there are names to avoid, one is free; hence the search looks at no more
than that.
-/

set_option autoImplicit false
set_option relaxedAutoImplicit false

namespace Toolpath

/-- A generated name. -/
def numbered (stem : String) (number : Nat) : String :=
  stem ++ Decimal.padded 3 number

/-- The first number from `start` on whose name is not taken. -/
def freeNumber? (stem : String) (start : Nat) (taken : List String) : Option Nat :=
  (List.range' start (taken.length + 1)).find? fun number ↦ !taken.contains (numbered stem number)

/-- An attribute that had to give way to another one of its name. -/
structure Renaming where
  typeName : String
  name : String
  newName : String
  deriving DecidableEq, Repr

/-- What is known after naming some attributes of the listing. -/
structure Naming where
  /-- The names in use. -/
  used : List String
  /-- The next number to try, by type name. -/
  counters : List (String × Nat)
  /-- The names that differ from those of the authors. -/
  given : List (AttributeId × String)
  /-- The latest renaming comes first. -/
  renamings : List Renaming

namespace Naming

def start : Naming :=
  ⟨[], [], [], []⟩

def counter (naming : Naming) (typeName : String) : Nat :=
  (naming.counters.lookup typeName).getD 0

variable {α : Type}

/-- Names one more attribute. `authored` are the names given by the authors. -/
def add (authored : List String) (naming : Naming) (entry : Attribute α) : Naming :=
  let name := entry.name
  let typeName := entry.typeName
  let taken := naming.used ++ authored
  if name.isEmpty then
    let number := (freeNumber? typeName (naming.counter typeName) taken).getD 0
    let newName := numbered typeName number
    { naming with
      used := newName :: naming.used
      counters := (typeName, number + 1) :: naming.counters
      given := (entry.id, newName) :: naming.given }
  else if naming.used.contains name then
    let newName := ((freeNumber? name 0 taken).map (numbered name)).getD ""
    { naming with
      used := newName :: naming.used
      given := (entry.id, newName) :: naming.given
      renamings := ⟨typeName, name, newName⟩ :: naming.renamings }
  else { naming with used := name :: naming.used }

/-- The names that the authors gave. -/
def authoredNames (listing : List (Attribute α)) : List String :=
  (listing.map Attribute.name).filter (!·.isEmpty)

/-- Names the distinct attributes of a listing. -/
def ofListing (listing : List (Attribute α)) : Naming :=
  listing.foldl (add (authoredNames listing)) start

/-- The new labels of the attributes. -/
def relabelling (naming : Naming) : Relabelling := fun kind label ↦
  match naming.given.lookup (kind, label.key) with
  | some name => label.rename name
  | none => label

end Naming

end Toolpath
