import Toolpath.Yaml.Cursor
import Toolpath.Yaml.Token

/-!
How far the tokens of a text have been read: the tokens found, the indentation of the open blocks,
the open flow collections, and the last place where a key may have started. A key is only known as
one at the colon after it, so the tokens that announce it are put in at the place where it started.

A colon between the entries of a flow list makes a mapping of a single pair. Only one such pair is
followed at a time: the next comma or closing mark ends it, whichever collection that belongs to.
Once a brace or a marked key has been met, and until a pair ends, a colon starts no pair; the key is
announced then, and no tokens of a mapping stand around it.
-/

set_option autoImplicit false
set_option relaxedAutoImplicit false

namespace Toolpath.Yaml

/-- A column that tokens must reach: that of a block collection, or one right of it for the content
of an entry. -/
structure Indent where
  column : Int
  block : Bool

/-- A place where a key may have started. -/
structure KeyStart where
  /-- How many tokens stand before it. -/
  place : Nat
  line : Nat
  column : Nat
  index : Nat
  /-- Whether nothing else than a key can stand there. -/
  required : Bool

structure Layout where
  cursor : Cursor
  tokens : Array Token
  /-- The innermost comes first. -/
  indents : List Indent
  /-- For every open flow collection, the key that the collection itself may be the start of. The
  innermost comes first. -/
  outerKeys : List (Option KeyStart)
  key : Option KeyStart
  /-- Whether a key may start here. -/
  keyAllowed : Bool
  /-- Where, after a quoted key or a flow collection, a colon needs no gap after it. -/
  adjacent : Option Nat
  /-- Whether the last colon started a single pair that has not ended. -/
  pairOpen : Bool
  /-- Whether a brace or a marked key in a flow collection was met since the last pair ended. -/
  mappingSeen : Bool

namespace Layout

def start (text : String) : Layout :=
  ⟨.ofText text, #[], [], [], none, true, none, false, false⟩

/-- The column that tokens must reach. -/
def indent (layout : Layout) : Int :=
  (layout.indents.head?.map Indent.column).getD (-1)

def inFlow (layout : Layout) : Bool :=
  !layout.outerKeys.isEmpty

def push (token : Token) (layout : Layout) : Layout :=
  { layout with tokens := layout.tokens.push token }

/-- Puts a token in after `place` others. -/
def insert (place : Nat) (token : Token) (layout : Layout) : Layout :=
  { layout with
    tokens := layout.tokens.extract 0 place ++ #[token] ++
      layout.tokens.extract place layout.tokens.size }

def moveTo (cursor : Cursor) (layout : Layout) : Layout :=
  { layout with cursor }

def allowKey (keyAllowed : Bool) (layout : Layout) : Layout :=
  { layout with keyAllowed }

/-- Notes that a key may start here. -/
def markKey (layout : Layout) : Layout :=
  if layout.keyAllowed then
    let cursor := layout.cursor
    let required := !layout.inFlow && layout.indent == cursor.column &&
      (layout.indents.head?.map Indent.block).getD false
    { layout with
      key := some ⟨layout.tokens.size, cursor.line, cursor.column, cursor.index, required⟩ }
  else layout

/-- What was noted is no key; fails where nothing else can stand. -/
def dropKey (layout : Layout) : Option Layout :=
  match layout.key with
  | some ⟨_, _, _, _, true⟩ => none
  | _ => some { layout with key := none }

/-- In a block, a key ends on its line and has at most 1024 characters. -/
def expireKey (layout : Layout) : Option Layout :=
  match layout.key with
  | some key =>
    if !layout.inFlow &&
        (key.line < layout.cursor.line || key.index + 1024 < layout.cursor.index) then
      layout.dropKey
    else some layout
  | none => some layout

/-- The indentations up to a column, and how many blocks end right of it. -/
def closeTo (column : Int) : List Indent → List Indent × Nat
  | [] => ([], 0)
  | indent :: rest =>
    if indent.column ≤ column then (indent :: rest, 0)
    else
      let (left, ends) := closeTo column rest
      (left, if indent.block then ends + 1 else ends)

/-- Ends the blocks right of a column. Flow collections are not ended by indentation. -/
def closeBlocks (column : Int) (layout : Layout) : Layout :=
  if layout.inFlow then layout
  else
    let (indents, ends) := closeTo column layout.indents
    { layout with indents, tokens := layout.tokens ++ Array.replicate ends .blockEnd }

/-- Forgets the columns that are not those of a block. -/
def dropMargins (layout : Layout) : Layout :=
  { layout with indents := layout.indents.dropWhile fun indent ↦ !indent.block }

/-- Content after this has to stand right of the innermost block. -/
def addMargin (layout : Layout) : Layout :=
  if layout.inFlow then layout
  else match layout.indents with
    | ⟨column, true⟩ :: outer =>
      { layout with indents := ⟨column + 1, false⟩ :: ⟨column, true⟩ :: outer }
    | _ => layout

/-- Starts a block at a column, unless one stands there; `place` tokens are before it. -/
def openBlock (token : Token) (column place : Nat) (layout : Layout) : Layout :=
  if layout.inFlow then layout
  else
    let indents := match layout.indents with
      | ⟨margin, false⟩ :: rest => if margin ≤ column then rest else layout.indents
      | indents => indents
    let layout := { layout with indents }
    if (column : Int) ≤ layout.indent then layout
    else { layout with indents := ⟨column, true⟩ :: indents }.insert place token

/-- Whether a colon here starts a single pair. -/
def startsPair (layout : Layout) : Bool :=
  layout.inFlow && !layout.mappingSeen

/-- Ends the open pair. -/
def endPair (layout : Layout) : Layout :=
  if layout.pairOpen then
    { layout with pairOpen := false, mappingSeen := false }.push .flowMappingEnd
  else layout

end Layout

end Toolpath.Yaml
