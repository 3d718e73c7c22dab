/-!
The distinct entries of a list, told apart by a key and kept in the order of their first occurrence.
-/

set_option autoImplicit false
set_option relaxedAutoImplicit false

namespace Toolpath

variable {α κ : Type} [DecidableEq κ]

/-- The entries whose key is not among the seen ones, each key once. -/
def distinctAfter (key : α → κ) (seen : List κ) : List α → List α
  | [] => []
  | x :: rest =>
    if key x ∈ seen then distinctAfter key seen rest
    else x :: distinctAfter key (key x :: seen) rest

def distinctBy (key : α → κ) (entries : List α) : List α :=
  distinctAfter key [] entries

end Toolpath
