import Toolpath.Yaml.Cursor

/-!
What lies between two words of a scalar. Blanks on a line are kept; a single line break becomes a
space, and of several breaks all but the first are kept.
-/

set_option autoImplicit false
set_option relaxedAutoImplicit false

namespace Toolpath.Yaml

structure Gap where
  /-- The blanks before the first line break. -/
  blanks : List Char
  breaks : Nat
  /-- Whether the first line break is escaped. -/
  escaped : Bool

namespace Gap

def empty : Gap := ⟨[], 0, false⟩

/-- The gap that starts with an escaped line break. -/
def afterEscape : Gap := ⟨[], 1, true⟩

/-- What is written in the place of the gap. -/
def fold (gap : Gap) : List Char :=
  match gap.breaks with
  | 0 => gap.blanks
  | 1 => if gap.escaped then [] else [' ']
  | more + 1 => List.replicate more '\n'

/-- Reads the rest of a gap. After a line break, a tab left of the column `indent` is refused in
quotes; elsewhere it may stand on a line without content, and with a comment there the line does not
count. -/
def read (quoted : Bool) (indent : Int) (gap : Gap) (cursor : Cursor) : Option (Gap × Cursor) :=
  match h : cursor.rest with
  | [] => some (gap, cursor)
  | c :: _ =>
    have := Cursor.length_next_lt h
    have := cursor.next.length_skipEmptyLine_le
    if isBreak c then
      read quoted indent { gap with blanks := [], breaks := gap.breaks + 1 } cursor.next
    else if !isBlank c then some (gap, cursor)
    else if gap.breaks = 0 then
      read quoted indent { gap with blanks := gap.blanks ++ [c] } cursor.next
    else if c = '\t' ∧ cursor.column < indent then
      if quoted || !cursor.lineIsBlank then none
      else read quoted indent gap cursor.next.skipEmptyLine
    else read quoted indent gap cursor.next
termination_by cursor.rest.length

end Gap

end Toolpath.Yaml
