import Toolpath.Yaml.Layout.Step
import Toolpath.Yaml.Node

/-!
The documents of a YAML text: what its tokens say. Where a value is left out, it is null.
-/

set_option autoImplicit false
set_option relaxedAutoImplicit false

namespace Toolpath.Yaml

/-- What is left to read, and what the names of tags and anchors stand for. -/
structure Source where
  tokens : List Token
  handles : List (String × String)
  /-- Each name with the number of its anchor, the latest first. -/
  anchors : List (String × Nat)
  /-- The nodes of the anchors whose node is complete. -/
  nodes : List (Nat × Node)
  anchorCount : Nat

/-- Reading part of the tokens; `none` where they make no document. -/
abbrev Reading := StateT Source Option

namespace Reading

def next? : Reading (Option Token) :=
  return (← get).tokens.head?

def advance : Reading Unit :=
  modify fun source ↦ { source with tokens := source.tokens.tail }

/-- Whether the next token is the given one, which is then passed. -/
def accept (token : Token) : Reading Bool := do
  if (← next?) = some token then
    advance
    return true
  return false

def expect (token : Token) : Reading Unit := do
  if !(← accept token) then failure

/-- The node of an anchor. -/
def referenced (name : String) : Reading Node := do
  let source ← get
  match source.anchors.lookup name with
  | none => failure
  | some number => return (source.nodes.lookup number).getD .invalid

/-- What stands before a node. -/
structure Properties where
  anchor : Option Nat
  tag : Option (String × String)

/-- What the handle of a tag stands for. A handle between two marks has to be declared. -/
def meaning (handle suffix : String) : Reading (String × String) := do
  match (← get).handles.lookup handle with
  | some meaning => return (meaning, suffix)
  | none =>
    if handle = "!!" then return (Node.coreHandle, suffix)
    else if handle = "!" ∨ handle = "" then return (handle, suffix)
    else failure

def anchor? : Reading (Option Nat) := do
  match ← next? with
  | some (.anchor name) =>
    advance
    let source ← get
    let number := source.anchorCount
    set { source with anchors := (name, number) :: source.anchors, anchorCount := number + 1 }
    return some number
  | _ => return none

def tag? : Reading (Option (String × String)) := do
  match ← next? with
  | some (.tag handle suffix) =>
    advance
    return some (← meaning handle suffix)
  | _ => return none

/-- An anchor and a tag, in any order. -/
def properties : Reading Properties := do
  match ← anchor? with
  | some number => return ⟨some number, ← tag?⟩
  | none => match ← tag? with
    | some tag => return ⟨← anchor?, some tag⟩
    | none => return ⟨none, none⟩

/-- The node stands at its anchor from here on. -/
def complete (properties : Properties) (node : Node) : Reading Node := do
  if let some number := properties.anchor then
    modify fun source ↦ { source with nodes := (number, node) :: source.nodes }
  return node

/-- The mapping of keys and values that come in turn. -/
def mappingOf (nodes : List Node) : Reading Node :=
  match Node.entries? [] nodes with
  | some entries => return .mapping entries
  | none => failure

/-- Whether the next token is one of the given ones. -/
def isNext (tokens : List Token) : Reading Bool := do
  match ← next? with
  | some token => return tokens.contains token
  | none => return false

mutual

/-- A node. Block collections stand only in blocks; `hanging` allows a block list without an
indentation of its own. -/
def node (block hanging : Bool) : Nat → Reading Node
  | 0 => failure
  | fuel + 1 => do
    if let some (.reference name) := ← next? then
      advance
      return ← referenced name
    let properties ← properties
    match ← next? with
    | some (.scalar plain text) =>
      advance
      complete properties (.ofScalar plain properties.tag text)
    | some .flowListStart =>
      advance
      complete properties (.list (← flowItems true fuel))
    | some .flowMappingStart =>
      advance
      complete properties (← mappingOf (← flowEntries true fuel))
    | some .blockListStart =>
      if !block then failure
      advance
      complete properties (.list (← blockItems fuel))
    | some .blockMappingStart =>
      if !block then failure
      advance
      complete properties (← mappingOf (← blockEntries fuel))
    | token =>
      if hanging && token = some .entry then
        complete properties (.list (← hangingItems fuel))
      else if properties.anchor.isSome ∨ properties.tag.isSome then
        complete properties (.ofScalar true properties.tag "")
      else failure

/-- The items of a block list up to its end. -/
def blockItems : Nat → Reading (List Node)
  | 0 => failure
  | fuel + 1 => do
    if ← accept .blockEnd then return []
    expect .entry
    let item ← if ← isNext [.entry, .blockEnd] then pure .null else node true false fuel
    return item :: (← blockItems fuel)

/-- The items of a list that hangs under the key of a mapping. -/
def hangingItems : Nat → Reading (List Node)
  | 0 => failure
  | fuel + 1 => do
    if !(← accept .entry) then return []
    let item ← if ← isNext [.entry, .key, .value, .blockEnd] then pure .null
      else node true false fuel
    return item :: (← hangingItems fuel)

/-- The keys and values of a block mapping in turn, up to its end. -/
def blockEntries : Nat → Reading (List Node)
  | 0 => failure
  | fuel + 1 => do
    if ← accept .blockEnd then return []
    let key ← if ← accept .key then blockPart fuel
      else if ← isNext [.value] then pure .null
      else failure
    let value ← if ← accept .value then blockPart fuel else pure .null
    return key :: value :: (← blockEntries fuel)

/-- A key or a value of a block mapping. -/
def blockPart : Nat → Reading Node
  | 0 => failure
  | fuel + 1 => do
    if ← isNext [.key, .value, .blockEnd] then return .null
    node true true fuel

/-- The items of a flow list up to its end. -/
def flowItems (first : Bool) : Nat → Reading (List Node)
  | 0 => failure
  | fuel + 1 => do
    if ← accept .flowListEnd then return []
    if !first then
      expect .comma
      if ← accept .flowListEnd then return []
    let item ← if ← accept .key then pair fuel else node false false fuel
    return item :: (← flowItems false fuel)

/-- The mapping of a single pair in a flow list, after the token that announces its key. Where the
key is left out, the token after it is passed in its place. -/
def pair : Nat → Reading Node
  | 0 => failure
  | fuel + 1 => do
    let key ← if ← isNext [.value, .comma, .flowListEnd] then
        advance
        pure .null
      else node false false fuel
    let value ← if ← accept .value then
        if ← isNext [.comma, .flowListEnd] then pure .null else node false false fuel
      else pure .null
    mappingOf [key, value]

/-- The keys and values of a flow mapping in turn, up to its end. -/
def flowEntries (first : Bool) : Nat → Reading (List Node)
  | 0 => failure
  | fuel + 1 => do
    if ← accept .flowMappingEnd then return []
    if !first then
      expect .comma
      if ← accept .flowMappingEnd then return []
    if !(← isNext [.key, .value]) then
      let key ← node false false fuel
      return key :: .null :: (← flowEntries false fuel)
    let key ← if ← accept .key then
        if ← isNext [.value, .comma, .flowMappingEnd] then pure .null else node false false fuel
      else pure .null
    let value ← if ← accept .value then
        if ← isNext [.comma, .flowMappingEnd] then pure .null else node false false fuel
      else pure .null
    return key :: value :: (← flowEntries false fuel)

end

/-- More than the nesting of calls that reading the tokens takes. -/
def fuelFor (tokens : List Token) : Nat :=
  4 * (tokens.length + 1)

def content : Reading Node := do
  node true false (fuelFor (← get).tokens)

/-- The directives before a document. The last one counts for its tags. -/
def directives : Nat → Bool → Reading Unit
  | 0, _ => failure
  | fuel + 1, versioned => do
    match ← next? with
    | some .version =>
      if versioned then failure
      advance
      modify fun source ↦ { source with handles := [] }
      directives fuel true
    | some (.handle name meaning) =>
      advance
      modify fun source ↦ { source with handles := [(name, meaning)] }
      directives fuel versioned
    | _ => return

/-- A document after the mark of its start; it may be empty. -/
def markedDocument : Reading Node := do
  directives (fuelFor (← get).tokens) false
  expect .documentStart
  match ← next? with
  | none | some .version | some (.handle ..) | some .documentStart | some .documentEnd =>
    return .null
  | _ => content

/-- The end of a document: whether it is marked. Directives only follow a marked end. -/
def documentEnd : Reading Bool := do
  modify fun source ↦ { source with handles := [], anchors := [] }
  if ← accept .documentEnd then return true
  match ← next? with
  | some .version | some (.handle ..) => failure
  | _ => return false

/-- The documents of the tokens, at most `fuel`. A document whose start is not marked is the first
one or follows a marked end. -/
def documents : Nat → Bool → Reading (List Node)
  | 0, _ => failure
  | fuel + 1, ended => do
    match ← next? with
    | none => return []
    | some .documentEnd =>
      advance
      documents fuel ended
    | some .documentStart | some .version | some (.handle ..) =>
      let document ← markedDocument
      let ended ← documentEnd
      return document :: (← documents fuel ended)
    | some _ =>
      if !ended then failure
      let document ← content
      let ended ← documentEnd
      return document :: (← documents fuel ended)

end Reading

/-- The documents of a text, `none` where the text is not YAML. -/
def Node.documents? (text : String) : Option (List Node) := do
  let tokens ← Token.ofText? text
  (Reading.documents (Reading.fuelFor tokens) true).run' ⟨tokens, [], [], [], 0⟩

end Toolpath.Yaml
