import Toolpath.Yaml.Character

/-!
A place in a text, with the line and the column that YAML's indentation rules look at. Every step
leaves less text, so that loops over the text end with it.
-/

set_option autoImplicit false
set_option relaxedAutoImplicit false

namespace Toolpath.Yaml

structure Cursor where
  rest : List Char
  /-- How many characters have been passed. -/
  index : Nat
  line : Nat
  column : Nat
  /-- Whether only blanks have been passed on this line. -/
  margin : Bool

namespace Cursor

/-- The start of a text. A NUL character ends the text. -/
def ofText (text : String) : Cursor :=
  ⟨text.toList.takeWhile (· != '\x00'), 0, 0, 0, true⟩

def nextLine (cursor : Cursor) (rest : List Char) (width : Nat) : Cursor :=
  ⟨rest, cursor.index + width, cursor.line + 1, 0, true⟩

/-- Past one character. A carriage return and the line feed after it are one line break. -/
def next (cursor : Cursor) : Cursor :=
  match cursor.rest with
  | [] => cursor
  | '\r' :: '\n' :: rest => cursor.nextLine rest 2
  | c :: rest =>
    if isBreak c then cursor.nextLine rest 1
    else ⟨rest, cursor.index + 1, cursor.line, cursor.column + 1, cursor.margin && isBlank c⟩

theorem length_next_lt {cursor : Cursor} {c : Char} {rest : List Char}
    (h : cursor.rest = c :: rest) : cursor.next.rest.length < cursor.rest.length := by
  unfold next
  split
  · simp_all
  · rename_i tail htail
    simp only [nextLine, htail, List.length_cons]
    omega
  · rename_i d tail _ htail
    split <;> simp [nextLine, htail]

theorem length_next_le (cursor : Cursor) : cursor.next.rest.length ≤ cursor.rest.length := by
  cases h : cursor.rest with
  | nil => simp [next, h]
  | cons c rest => simpa [h] using Nat.le_of_lt (length_next_lt h)

/-- Past the given count of characters. -/
def skip (cursor : Cursor) : Nat → Cursor
  | 0 => cursor
  | count + 1 => skip cursor.next count

/-- Past the characters of the class `p`. -/
def skipWhile (p : Char → Bool) (cursor : Cursor) : Cursor :=
  match h : cursor.rest with
  | [] => cursor
  | c :: _ =>
    have := length_next_lt h
    if p c then skipWhile p cursor.next else cursor
termination_by cursor.rest.length

theorem length_skipWhile_le (p : Char → Bool) (cursor : Cursor) :
    (cursor.skipWhile p).rest.length ≤ cursor.rest.length := by
  fun_induction skipWhile p cursor with
  | case1 => exact Nat.le_refl _
  | case2 cursor c rest h _ _ ih => exact Nat.le_trans ih (Nat.le_of_lt (length_next_lt h))
  | case3 => exact Nat.le_refl _

/-- Past the rest of the line. -/
def skipLine (cursor : Cursor) : Cursor :=
  cursor.skipWhile (!isBreak ·)

theorem length_skipLine_le (cursor : Cursor) :
    cursor.skipLine.rest.length ≤ cursor.rest.length :=
  length_skipWhile_le _ cursor

/-- Past the rest of a line without content: up to its end, or past it where there is a comment. -/
def skipEmptyLine (cursor : Cursor) : Cursor :=
  if cursor.skipLine.margin then cursor.skipLine else cursor.skipLine.next

theorem length_skipEmptyLine_le (cursor : Cursor) :
    cursor.skipEmptyLine.rest.length ≤ cursor.rest.length := by
  unfold skipEmptyLine
  split
  · exact length_skipLine_le cursor
  · exact Nat.le_trans (length_next_le _) (length_skipLine_le cursor)

def isAt (cursor : Cursor) (c : Char) : Bool :=
  nextIs (· == c) cursor.rest

def atLineEnd (cursor : Cursor) : Bool :=
  match cursor.rest with
  | [] => true
  | c :: _ => isBreak c

/-- Whether a line break or a blank comes next; the end of the text is neither. -/
def atGap (cursor : Cursor) : Bool :=
  nextIs isGap cursor.rest

/-- Whether nothing but blanks and a comment stand on the rest of the line. -/
def lineIsBlank (cursor : Cursor) : Bool :=
  match cursor.rest.dropWhile isBlank with
  | [] => true
  | c :: _ => isBreak c || c == '#'

/-- Whether three times the given character stand at the start of the line as a word. -/
def atLineMark (mark : Char) (cursor : Cursor) : Bool :=
  match cursor.rest with
  | a :: b :: c :: rest =>
    cursor.column == 0 && a == mark && b == mark && c == mark && gapNext rest
  | _ => false

/-- Whether a document starts or ends here. -/
def atDocumentMark (cursor : Cursor) : Bool :=
  cursor.atLineMark '-' || cursor.atLineMark '.'

/-- Past blanks and a comment. A comment stands apart from what is before it. -/
def skipBlanks (cursor : Cursor) : Option Cursor :=
  let stop := cursor.skipWhile isBlank
  if !stop.isAt '#' then some stop
  else if stop.index = cursor.index then none
  else some stop.skipLine

/-- Past everything of the class `p` and past comments. -/
def skipGaps (p : Char → Bool) (cursor : Cursor) : Cursor :=
  match h : cursor.rest with
  | [] => cursor
  | c :: _ =>
    have := length_next_lt h
    have := length_skipLine_le cursor.next
    if p c then skipGaps p cursor.next
    else if c = '#' then skipGaps p cursor.next.skipLine
    else cursor
termination_by cursor.rest.length

/-- Past blanks, line breaks and comments. In a block, no tab may indent a token: tabs left of the
column `indent` stand on lines without one. -/
def skipToToken (block : Bool) (indent : Int) (cursor : Cursor) : Option Cursor :=
  match h : cursor.rest with
  | [] => some cursor
  | c :: _ =>
    have := length_next_lt h
    have := length_skipLine_le cursor.next
    if c = '#' then skipToToken block indent cursor.next.skipLine
    else if !isGap c then some cursor
    else if block && c == '\t' && cursor.margin && cursor.column < indent &&
        !cursor.lineIsBlank then
      none
    else skipToToken block indent cursor.next
termination_by cursor.rest.length

end Cursor

end Toolpath.Yaml
