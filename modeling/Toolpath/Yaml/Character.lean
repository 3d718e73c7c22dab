/-!
The classes of characters that YAML tells apart. Letters are those of ASCII.
-/

set_option autoImplicit false
set_option relaxedAutoImplicit false

namespace Toolpath.Yaml

def isBlank (c : Char) : Bool :=
  c == ' ' || c == '\t'

def isBreak (c : Char) : Bool :=
  c == '\n' || c == '\r'

def isGap (c : Char) : Bool :=
  isBlank c || isBreak c

def openBrace : Char := '\x7b'

def closeBrace : Char := '\x7d'

/-- The marks of flow collections. -/
def isFlowMark (c : Char) : Bool :=
  c == ',' || c == '[' || c == ']' || c == openBrace || c == closeBrace

/-- Letters, digits, underscores and hyphens, as in the handles of tags. -/
def isWordChar (c : Char) : Bool :=
  c.isAlphanum || c == '_' || c == '-'

def byteOrderMark : Char := '\ufeff'

def isAnchorChar (c : Char) : Bool :=
  !isGap c && !isFlowMark c && c != byteOrderMark

/-- What may stand in a URI. -/
def isUriChar (c : Char) : Bool :=
  isWordChar c || "#;/?:@&=+$,.!~*'()[]%".toList.contains c

/-- What may stand in the suffix of a tag. -/
def isTagChar (c : Char) : Bool :=
  isUriChar c && !isFlowMark c && c != '!'

/-- The value of a hexadecimal digit. -/
def hexDigit? (c : Char) : Option Nat :=
  if c.isDigit then some (c.toNat - '0'.toNat)
  else if 'a' ≤ c ∧ c ≤ 'f' then some (c.toNat - 'a'.toNat + 10)
  else if 'A' ≤ c ∧ c ≤ 'F' then some (c.toNat - 'A'.toNat + 10)
  else none

/-- Whether nothing, a blank or a line break comes next. -/
def gapNext : List Char → Bool
  | [] => true
  | c :: _ => isGap c

/-- Whether a character of the class `p` comes next. -/
def nextIs (p : Char → Bool) : List Char → Bool
  | [] => false
  | c :: _ => p c

end Toolpath.Yaml
