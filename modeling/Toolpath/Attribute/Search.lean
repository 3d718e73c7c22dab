import Toolpath.Attribute.Naming

/-!
The search for names, one candidate after another. An attribute without a name is offered the names
of its type in the order of their numbers, and the counter of the type goes on with every offer.
An attribute whose name is in use tries the numbers behind its name, each time from zero on. Nothing
bounds the number of candidates: the search stays with an attribute until one of them is free.
-/

set_option autoImplicit false
set_option relaxedAutoImplicit false

namespace Toolpath

namespace Naming

/-- The next number of a type is spent. -/
def count (naming : Naming) (typeName : String) : Naming :=
  { naming with counters := (typeName, naming.counter typeName + 1) :: naming.counters }

/-- A generated name is in use from now on. -/
def give (naming : Naming) (id : AttributeId) (name : String) : Naming :=
  { naming with used := name :: naming.used, given := (id, name) :: naming.given }

end Naming

/-- What is known between two candidates. -/
structure NameSearch (α : Type) where
  /-- The attributes without a final name. -/
  pending : List (Attribute α)
  naming : Naming
  /-- The next number to try behind the name of the first pending attribute. -/
  suffix : Nat
  /-- The names that were offered to attributes without a name, each with its type. The latest one
  comes first. -/
  offered : List (String × String)

namespace NameSearch

variable {α : Type}

def start (listing : List (Attribute α)) : NameSearch α :=
  ⟨listing, .start, 0, []⟩

/-- The names that no candidate may have. -/
def taken (search : NameSearch α) (authored : List String) : List String :=
  search.naming.used ++ authored

/-- Looks at one candidate, or at an attribute that keeps its name. -/
def step? (authored : List String) (search : NameSearch α) : Option (NameSearch α) :=
  match search.pending with
  | [] => none
  | entry :: rest =>
    let naming := search.naming
    if entry.name.isEmpty then
      let candidate := numbered entry.typeName (naming.counter entry.typeName)
      let counted := naming.count entry.typeName
      let offered := (entry.typeName, candidate) :: search.offered
      if (search.taken authored).contains candidate then
        some { search with naming := counted, offered }
      else some ⟨rest, counted.give entry.id candidate, 0, offered⟩
    else if naming.used.contains entry.name then
      let candidate := numbered entry.name search.suffix
      if (search.taken authored).contains candidate then
        some { search with suffix := search.suffix + 1 }
      else
        let given := naming.give entry.id candidate
        let renamings := ⟨entry.typeName, entry.name, candidate⟩ :: naming.renamings
        some ⟨rest, { given with renamings }, 0, search.offered⟩
    else some ⟨rest, { naming with used := entry.name :: naming.used }, 0, search.offered⟩

/-- At most the given number of steps. -/
def run (authored : List String) : Nat → NameSearch α → NameSearch α
  | 0, search => search
  | count + 1, search => match search.step? authored with
    | none => search
    | some next => run authored count next

/-- The search through a listing after some steps. -/
def after (listing : List (Attribute α)) (count : Nat) : NameSearch α :=
  run (Naming.authoredNames listing) count (start listing)

/-- The names that were offered to attributes of a type. -/
def offeredBy (search : NameSearch α) (typeName : String) : List String :=
  (search.offered.filter fun offer ↦ offer.1 == typeName).map Prod.snd

end NameSearch

end Toolpath
