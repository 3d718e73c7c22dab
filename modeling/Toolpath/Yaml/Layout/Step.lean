import Toolpath.Yaml.Layout
import Toolpath.Yaml.Property
import Toolpath.Yaml.Scalar.Block
import Toolpath.Yaml.Scalar.Plain
import Toolpath.Yaml.Scalar.Quoted

/-!
The tokens of a text, one after the other. A text that is not YAML has none.
-/

set_option autoImplicit false
set_option relaxedAutoImplicit false

namespace Toolpath.Yaml

namespace Layout

/-- Flow collections are nested at most this deep. -/
def maxFlowDepth : Nat := 255

def openFlow (token : Token) (layout : Layout) : Option Layout := do
  if maxFlowDepth ≤ layout.outerKeys.length then failure
  let layout := layout.markKey.addMargin
  let cursor ← layout.cursor.next.skipBlanks
  return { layout with
    cursor
    outerKeys := layout.key :: layout.outerKeys
    key := none
    keyAllowed := true
    mappingSeen := layout.mappingSeen || token == Token.flowMappingStart }.push token

/-- Ends the innermost flow collection. Whether the mark is that of its kind shows when the tokens
are read. -/
def closeFlow (token : Token) (layout : Layout) : Option Layout := do
  let layout := (← layout.dropKey).endPair
  let outerKeys := layout.outerKeys.tail
  let cursor ← layout.cursor.next.skipBlanks
  return { layout with
    cursor
    outerKeys
    key := layout.outerKeys.head?.join
    keyAllowed := false
    adjacent := if outerKeys.isEmpty then layout.adjacent else some cursor.index }.push token

def comma (layout : Layout) : Option Layout := do
  let layout ← layout.dropKey
  let cursor ← layout.cursor.next.skipBlanks
  return ((layout.allowKey true).endPair.push .comma).moveTo cursor

/-- The tab after a hyphen does not indent another entry. -/
def tabBeforeEntry (blanks rest : List Char) : Bool :=
  blanks.contains '\t' && nextIs (· == '-') rest && gapNext (rest.drop 1)

def entry (layout : Layout) : Option Layout := do
  if layout.inFlow ∨ !layout.keyAllowed then failure
  let start := layout.cursor
  let layout := layout.openBlock .blockListStart start.column layout.tokens.size
  let cursor ← start.next.skipBlanks
  if tabBeforeEntry (start.next.rest.takeWhile isBlank) cursor.rest then failure
  let layout :=
    if nextIs (fun c ↦ isBreak c || isFlowMark c) cursor.rest then layout.addMargin else layout
  let layout ← layout.dropKey
  return ((layout.allowKey true).push .entry).moveTo cursor

/-- A key with a mark of its own, which a space or a line break follows. -/
def markedKey (layout : Layout) : Option Layout := do
  if !layout.inFlow ∧ !layout.keyAllowed then failure
  let start := layout.cursor
  let layout := layout.openBlock .blockMappingStart start.column layout.tokens.size
  let layout := { layout with mappingSeen := layout.mappingSeen || layout.inFlow }
  let layout ← layout.dropKey
  let cursor := start.next.skipGaps fun c ↦ c == ' ' || isBreak c
  if cursor.index = start.next.index ∨ cursor.isAt '\t' then failure
  return ((layout.allowKey !layout.inFlow).push .key).moveTo cursor

/-- Whether tabs alone stand between a colon and a word or a hyphen. -/
def tabAfterColon (rest : List Char) : Bool :=
  let blanks := rest.takeWhile isBlank
  nextIs (· == '\t') rest && !blanks.contains ' ' &&
    nextIs isWordChar (rest.drop blanks.length)

/-- The colon after a key. Without one, it starts a mapping with an empty key. -/
def value (layout : Layout) : Option Layout := do
  let start := layout.cursor
  if tabAfterColon start.next.rest then failure
  let pair := layout.startsPair
  let layout := { layout with pairOpen := pair }.moveTo start.next
  match layout.key with
  | some key =>
    if pair ∧ key.line < start.line then failure
    let layout := layout.insert key.place .key
    let layout := if pair then layout.insert key.place .flowMappingStart else layout
    let layout := (layout.openBlock .blockMappingStart key.column key.place).addMargin
    return { layout with key := none, keyAllowed := false }.push .value
  | none =>
    let layout := if pair then layout.push .flowMappingStart else layout
    if !layout.inFlow ∧ !layout.keyAllowed then failure
    let layout := (layout.openBlock .blockMappingStart start.column layout.tokens.size).addMargin
    return (layout.allowKey !layout.inFlow).push .value

/-- What may be a key and is no key's start inside: anchors, references, tags and scalars. -/
def part (read : Cursor → Option (Token × Cursor)) (layout : Layout) : Option Layout := do
  let (token, cursor) ← read layout.cursor
  return ((layout.markKey.allowKey false).push token).moveTo cursor

def plain (layout : Layout) : Option Layout := do
  let layout := (layout.markKey.allowKey false).dropMargins
  let (text, cursor) ← Plain.read layout.inFlow (layout.indent + 1) layout.cursor
  return ((layout.allowKey cursor.margin).push (.scalar true text)).moveTo cursor

/-- What may follow a quoted scalar that starts on the given line. -/
def quotedEnds (flow : Bool) (line : Nat) (cursor : Cursor) : Bool :=
  match cursor.rest with
  | [] => true
  | ':' :: _ => flow || line == cursor.line
  | c :: _ => isBreak c || (flow && (c == ',' || c == ']' || c == closeBrace))

/-- Moves on to the next token. A key may start on a new line. -/
def toToken (layout : Layout) : Option Layout :=
  (layout.cursor.skipToToken (!layout.indents.isEmpty) layout.indent).map fun cursor ↦
    { layout with
      cursor
      keyAllowed := layout.keyAllowed ||
        (!layout.inFlow && layout.cursor.line != cursor.line) }

def quoted (double : Bool) (layout : Layout) : Option Layout := do
  let layout := layout.markKey.allowKey false
  let (text, stop) ← Quoted.read double layout.indent layout.cursor
  let cursor ← stop.skipBlanks
  if !quotedEnds layout.inFlow layout.cursor.line cursor then failure
  let layout ← ((layout.push (.scalar false text)).moveTo cursor).toToken
  return { layout with adjacent := some layout.cursor.index }

def blockText (folded : Bool) (layout : Layout) : Option Layout := do
  let layout := (layout.markKey.allowKey true).dropMargins
  let (text, cursor) ← Block.read folded layout.indent layout.cursor
  return (layout.push (.scalar false text)).moveTo cursor

/-- Leaves every block, at the end of a document or before a directive. -/
def leaveBlocks (layout : Layout) : Option Layout := do
  if layout.inFlow then failure
  return (← (layout.closeBlocks (-1)).dropKey).allowKey false

def directive (layout : Layout) : Option Layout := do
  let (token, cursor) ← Property.directive layout.cursor
  return ((← layout.leaveBlocks).push token).moveTo cursor

def documentStart (layout : Layout) : Option Layout := do
  return ((← layout.leaveBlocks).push .documentStart).moveTo (layout.cursor.skip 3)

def documentEnd (layout : Layout) : Option Layout := do
  let cursor ← (layout.cursor.skip 3).skipBlanks
  if !cursor.atLineEnd then failure
  return ((← layout.leaveBlocks).push .documentEnd).moveTo cursor

/-- Whether a colon here separates a key from its value. -/
def colonSeparates (rest : List Char) (layout : Layout) : Bool :=
  gapNext rest ||
    (layout.inFlow && (nextIs isFlowMark rest || layout.adjacent == some layout.cursor.index))

/-- Reads the token that starts with the character `c`. -/
def token (c : Char) (rest : List Char) (layout : Layout) : Option Layout :=
  match c with
  | '[' => layout.openFlow .flowListStart
  | ']' => layout.closeFlow .flowListEnd
  | '\x7b' => layout.openFlow .flowMappingStart
  | '\x7d' => layout.closeFlow .flowMappingEnd
  | ',' => layout.comma
  | '-' => if gapNext rest then layout.entry else layout.plain
  | '?' => if gapNext rest then layout.markedKey else layout.plain
  | ':' => if layout.colonSeparates rest then layout.value else layout.plain
  | '*' => layout.part fun cursor ↦
    (Property.anchorName cursor).map fun (name, stop) ↦ (.reference name, stop)
  | '&' => layout.part fun cursor ↦
    (Property.anchorName cursor).map fun (name, stop) ↦ (.anchor name, stop)
  | '!' => layout.part (Property.tag layout.inFlow)
  | '|' => if layout.inFlow then layout.plain else layout.blockText false
  | '>' => if layout.inFlow then layout.plain else layout.blockText true
  | '\x27' => layout.quoted false
  | '\x22' => layout.quoted true
  | '%' | '@' | '\x60' => none
  | _ => layout.plain

/-- Reads one token at the start of it. -/
def step (layout : Layout) : Option Layout :=
  match layout.cursor.rest with
  | [] => some layout
  | c :: rest =>
    if layout.cursor.column = 0 ∧ c = '%' then layout.directive
    else if layout.cursor.atLineMark '-' then layout.documentStart
    else if layout.cursor.atLineMark '.' then layout.documentEnd
    else if layout.cursor.column < layout.indent then none
    else layout.token c rest

/-- Reads at most `fuel` tokens. -/
def run : Nat → Layout → Option Layout
  | 0, _ => none
  | fuel + 1, layout => do
    let layout ← (← layout.toToken).expireKey
    let layout := layout.closeBlocks layout.cursor.column
    if layout.cursor.rest.isEmpty then layout.leaveBlocks
    else run fuel (← layout.step)

end Layout

/-- The tokens of a text. Each token has a character of its own, so the length of the text bounds
their number. -/
def Token.ofText? (text : String) : Option (List Token) :=
  (Layout.run (text.length + 1) (.start text)).map fun layout ↦ layout.tokens.toList

end Toolpath.Yaml
