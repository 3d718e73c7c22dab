import Toolpath.Yaml.Scalar.Folding

/-!
Scalars without quotes. They end before a colon with a gap after it, before a comment, at the start
or end of a document, on a line that is not indented enough and, in flow collections, before the
marks of the collection.
-/

set_option autoImplicit false
set_option relaxedAutoImplicit false

namespace Toolpath.Yaml.Plain

/-- The word at the start of the text. -/
def word (flow : Bool) : List Char → List Char
  | [] => []
  | c :: rest =>
    if isGap c || (flow && isFlowMark c) ||
        (c == ':' && (gapNext rest || (flow && nextIs isFlowMark rest))) then []
    else c :: word flow rest

/-- Whether a hyphen stands before a mark of a flow collection. -/
def dashBeforeMark : List Char → Bool
  | '-' :: rest => nextIs isFlowMark rest
  | _ => false

/-- The words from here on, after the given text and gap, in at most `fuel` words. -/
def words (flow : Bool) (indent : Int) :
    Nat → List Char → Gap → Cursor → Option (List Char × Cursor)
  | 0, text, _, cursor => some (text, cursor)
  | fuel + 1, text, gap, cursor =>
    if cursor.atDocumentMark || cursor.isAt '#' then some (text, cursor)
    else if flow && dashBeforeMark cursor.rest then none
    else
      let word := word flow cursor.rest
      let text := if word.isEmpty then text else text ++ gap.fold ++ word
      let stop := cursor.skip word.length
      if !stop.atGap then some (text, stop)
      else (Gap.read false indent .empty stop).bind fun (gap, stop) ↦
        if !flow && stop.column < indent then some (text, stop)
        else words flow indent fuel text gap stop

/-- Reads a plain scalar whose later lines stand at column `indent` or right of it. It is not
empty. -/
def read (flow : Bool) (indent : Int) (cursor : Cursor) : Option (String × Cursor) :=
  if flow && cursor.column < indent then none
  else (words flow indent (cursor.rest.length + 1) [] .empty cursor).bind fun (text, stop) ↦
    if text.isEmpty then none else some (String.ofList text, stop)

end Toolpath.Yaml.Plain
