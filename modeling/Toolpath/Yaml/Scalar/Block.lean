import Toolpath.Yaml.Cursor

/-!
Scalars that take whole lines, with their line breaks kept as they are or folded. The header tells
what becomes of the line breaks at the end and may fix the indentation.
-/

set_option autoImplicit false
set_option relaxedAutoImplicit false

namespace Toolpath.Yaml.Block

/-- What becomes of the line breaks at the end of the scalar. -/
inductive Chomping where
  | strip
  /-- One of them is kept. -/
  | clip
  | keep
  deriving DecidableEq, Repr

def chomping? : List Char → Option Chomping
  | '+' :: _ => some .keep
  | '-' :: _ => some .strip
  | _ => none

/-- The chomping and the indentation written in the header, zero where none is written. -/
def header? (cursor : Cursor) : Option (Chomping × Nat × Cursor) :=
  let digit (cursor : Cursor) : Option (Nat × Cursor) := match cursor.rest with
    | c :: _ =>
      if c = '0' then none
      else if c.isDigit then some (c.toNat - '0'.toNat, cursor.next)
      else some (0, cursor)
    | [] => some (0, cursor)
  match chomping? cursor.rest with
  | some chomping => (digit cursor.next).map fun (indent, stop) ↦ (chomping, indent, stop)
  | none => (digit cursor).map fun (indent, stop) ↦
    match if indent = 0 then none else chomping? stop.rest with
    | some chomping => (chomping, indent, stop.next)
    | none => (.clip, indent, stop)

/-- Past the indentation and empty lines: how many lines, and the first line with content. -/
def skipIndent (indent breaks : Nat) (cursor : Cursor) : Nat × Cursor :=
  match h : cursor.rest with
  | [] => (breaks, cursor)
  | c :: _ =>
    have := Cursor.length_next_lt h
    if c = ' ' ∧ cursor.column < indent then skipIndent indent breaks cursor.next
    else if isBreak c then skipIndent indent (breaks + 1) cursor.next
    else (breaks, cursor)
termination_by cursor.rest.length

/-- Past the spaces before the first content: the widest indentation on the way, and how many lines
were empty. -/
def skipLead (widest breaks : Nat) (cursor : Cursor) : Nat × Nat × Cursor :=
  match h : cursor.rest with
  | [] => (max widest cursor.column, breaks, cursor)
  | c :: _ =>
    have := Cursor.length_next_lt h
    if c = ' ' then skipLead widest breaks cursor.next
    else if isBreak c then skipLead (max widest cursor.column) (breaks + 1) cursor.next
    else (max widest cursor.column, breaks, cursor)
termination_by cursor.rest.length

def newlines (count : Nat) : List Char :=
  List.replicate count '\n'

/-- The text read so far, and the line breaks since its last line. -/
structure Content where
  text : List Char
  /-- Whether the last line was ended. -/
  ended : Bool
  /-- The empty lines after it. -/
  breaks : Nat
  /-- Whether the last line started with a blank. -/
  indented : Bool

/-- What stands before the next line, which may start with a blank. -/
def Content.joint (content : Content) (folded blank : Bool) : List Char :=
  if folded && content.ended && !content.indented && !blank then
    if content.breaks = 0 then [' '] else newlines content.breaks
  else newlines ((if content.ended then 1 else 0) + content.breaks)

/-- The lines that stand at column `indent` or right of it, at most `fuel` lines. -/
def lines (folded : Bool) (indent : Nat) : Nat → Content → Cursor → Content × Cursor
  | 0, content, cursor => (content, cursor)
  | fuel + 1, content, cursor =>
    if cursor.column ≠ indent ∨ cursor.rest.isEmpty ∨
        (indent = 0 ∧ cursor.atLineMark '.') then
      (content, cursor)
    else
      let blank := nextIs isBlank cursor.rest
      let line := cursor.rest.takeWhile (!isBreak ·)
      let text := content.text ++ content.joint folded blank ++ line
      let stop := cursor.skipLine
      if stop.rest.isEmpty then (⟨text, false, 0, blank⟩, stop)
      else
        let (breaks, start) := skipIndent indent 0 stop.next
        lines folded indent fuel ⟨text, true, breaks, blank⟩ start

/-- The line breaks at the end. -/
def tail (chomping : Chomping) (indent : Nat) (content : Content) (stop : Cursor) : List Char :=
  match chomping with
  | .strip => []
  | _ =>
    newlines ((if content.ended then 1 else 0) +
      (if stop.rest.isEmpty ∧ max indent 1 ≤ stop.column then 1 else 0) +
      (if chomping = .keep then content.breaks else 0))

/-- The scalar of a text that ends before any content. -/
def emptyText (chomping : Chomping) (sameLine : Bool) (breaks : Nat) : List Char :=
  if sameLine then []
  else match chomping with
    | .strip => []
    | .clip => ['\n']
    | .keep => newlines (max breaks 1)

/-- Reads a scalar from its mark on, inside a block at column `indent`. -/
def read (folded : Bool) (indent : Int) (cursor : Cursor) : Option (String × Cursor) := do
  let (chomping, given, stop) ← header? cursor.next
  let stop ← stop.skipBlanks
  if !stop.atLineEnd then failure
  let start := stop.next
  if start.isAt '\t' then failure
  let (width, breaks, start) :=
    if given = 0 then
      let (widest, breaks, start) := skipLead 0 0 start
      (max (max widest (indent + 1).toNat) (if 0 < indent then 1 else 0), breaks, start)
    else
      let width := (max indent 0).toNat + given
      (width, skipIndent width 0 start)
  if start.rest.isEmpty then
    return (String.ofList (emptyText chomping (start.line = cursor.line) breaks), start)
  if start.column < width ∧ indent < start.column then failure
  let (content, stop) :=
    lines folded width (start.rest.length + 1) ⟨[], false, breaks, false⟩ start
  return (String.ofList (content.text ++ tail chomping width content stop), stop)

end Toolpath.Yaml.Block
