import Toolpath.Yaml.Cursor
import Toolpath.Yaml.Token

/-!
Anchors, tags and directives.
-/

set_option autoImplicit false
set_option relaxedAutoImplicit false

namespace Toolpath.Yaml.Property

/-- The characters of the class at the start of the text, and the place after them. -/
def run (p : Char → Bool) (cursor : Cursor) : List Char × Cursor :=
  (cursor.rest.takeWhile p, cursor.skipWhile p)

/-- The name of an anchor, after its mark. -/
def anchorName (cursor : Cursor) : Option (String × Cursor) :=
  let (name, stop) := run isAnchorChar cursor.next
  if name.isEmpty then none else some (String.ofList name, stop)

/-- The handle of a tag with its exclamation marks. -/
def handle (cursor : Cursor) : Option (List Char × Cursor) :=
  if !cursor.isAt '!' then none
  else
    let (name, stop) := run isWordChar cursor.next
    if stop.isAt '!' then some ('!' :: name ++ ['!'], stop.next) else some ('!' :: name, stop)

/-- An octet written as a percent sign and two hexadecimal digits. -/
def octet? : List Char → Option (Nat × List Char)
  | '%' :: a :: b :: rest => do
    return ((← hexDigit? a) * 16 + (← hexDigit? b), rest)
  | _ => none

/-- How many octets follow the first one of an escaped character. -/
def furtherOctets? (first : Nat) : Option Nat :=
  if first < 0x80 then some 0
  else if first < 0xc0 then none
  else if first < 0xe0 then some 1
  else if first < 0xf0 then some 2
  else if first < 0xf8 then some 3
  else none

/-- The number of an escaped character: its octets one after the other. -/
def escaped? (code : Nat) : Nat → List Char → Option (Nat × List Char)
  | 0, rest => some (code, rest)
  | count + 1, rest => do
    let (octet, rest) ← octet? rest
    if octet < 0x80 ∨ 0xc0 ≤ octet then failure
    escaped? (code * 256 + octet) count rest

/-- The characters that part of a URI stands for, at most `fuel` of them. -/
def uriChars? : Nat → List Char → Option (List Char)
  | 0, _ => some []
  | _ + 1, [] => some []
  | fuel + 1, c :: rest => do
    if c ≠ '%' then return c :: (← uriChars? fuel rest)
    let (first, rest) ← octet? (c :: rest)
    let (code, rest) ← escaped? first (← furtherOctets? first) rest
    if code.isValidChar then return .ofNat code :: (← uriChars? fuel rest) else failure

/-- The text that part of a URI stands for. -/
def uriText? (uri : List Char) : Option String :=
  (uriChars? uri.length uri).map String.ofList

/-- Whether a tag may end here: a gap follows, or in a flow collection a mark of the collection. -/
def tagEnds (flow : Bool) (cursor : Cursor) : Bool :=
  gapNext cursor.rest || (flow && nextIs isFlowMark cursor.rest)

/-- A tag written in full between angle brackets. -/
def fullTag (cursor : Cursor) : Option (Token × Cursor) := do
  let (uri, stop) := run isUriChar (cursor.skip 2)
  if !stop.isAt '>' then failure
  return (.tag "" (← uriText? uri), stop.next)

/-- A tag of a handle and a suffix. The lone mark is a tag with an empty handle. -/
def shortTag (cursor : Cursor) : Option (Token × Cursor) := do
  let (name, stop) ← handle cursor
  let (suffix, stop) := run isTagChar stop
  if 2 ≤ name.length ∧ name.getLast? = some '!' then
    if suffix.isEmpty then failure
    return (.tag (String.ofList name) (← uriText? suffix), stop)
  let suffix ← uriText? suffix
  let suffix := String.ofList (name.drop 1) ++ suffix
  return (if suffix.isEmpty then .tag "" "!" else .tag "!" suffix, stop)

def tag (flow : Bool) (cursor : Cursor) : Option (Token × Cursor) := do
  let (token, stop) ←
    if nextIs (· == '<') (cursor.rest.drop 1) then fullTag cursor else shortTag cursor
  if tagEnds flow stop then some (token, stop) else none

/-- A number of at most nine digits. -/
def versionNumber (cursor : Cursor) : Option Cursor :=
  let (digits, stop) := run Char.isDigit cursor
  if digits.isEmpty ∨ 9 < digits.length then none else some stop

def version (cursor : Cursor) : Option (Token × Cursor) := do
  let stop ← versionNumber (cursor.skipWhile isBlank)
  if !stop.isAt '.' then failure
  return (.version, ← versionNumber stop.next)

/-- What follows the directive of a handle: the handle and what it stands for. -/
def handleMeaning (cursor : Cursor) : Option (Token × Cursor) := do
  let (name, stop) ← handle (cursor.skipWhile isBlank)
  if name.length ≠ 1 ∧ name.getLast? ≠ some '!' then failure
  let (uri, stop) := run isUriChar (stop.skipWhile isBlank)
  if !nextIs (fun c ↦ c == '!' || isTagChar c) uri ∨ !gapNext stop.rest then failure
  return (.handle (String.ofList name) (← uriText? uri), stop)

/-- A directive with its line. Directives that are not known mean nothing. -/
def directive (cursor : Cursor) : Option (Token × Cursor) := do
  let (name, stop) := run isWordChar cursor.next
  if name.isEmpty ∨ !gapNext stop.rest then failure
  let (token, stop) ← match String.ofList name with
    | "YAML" => version stop
    | "TAG" => handleMeaning stop
    | _ => some (.handle "" "", stop.skipLine)
  let stop ← stop.skipBlanks
  if !stop.atLineEnd then failure
  return (token, stop.next)

end Toolpath.Yaml.Property
