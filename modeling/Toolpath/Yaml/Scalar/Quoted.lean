import Toolpath.Yaml.Scalar.Folding

/-!
Scalars in quotes. Between single quotes, a quote is written twice; between double quotes, a
backslash starts an escape. Line breaks are folded.
-/

set_option autoImplicit false
set_option relaxedAutoImplicit false

namespace Toolpath.Yaml.Quoted

def singleQuote : Char := '\x27'

def doubleQuote : Char := '\x22'

/-- Escapes of one character. -/
def escapes : List (Char × Char) :=
  [('0', '\x00'), ('a', '\x07'), ('b', '\x08'), ('t', '\t'), ('\t', '\t'), ('n', '\n'),
    ('v', '\x0b'), ('f', '\x0c'), ('r', '\r'), ('e', '\x1b'), (' ', ' '),
    (doubleQuote, doubleQuote), ('/', '/'), ('\\', '\\'), ('N', '\u0085'), ('_', '\u00a0'),
    ('L', '\u2028'), ('P', '\u2029')]

/-- The value of `count` hexadecimal digits. -/
def hex? (value : Nat) : Nat → List Char → Option Nat
  | 0, _ => some value
  | _ + 1, [] => none
  | count + 1, c :: rest => (hexDigit? c).bind fun digit ↦ hex? (value * 16 + digit) count rest

def charOf? (code : Nat) : Option Char :=
  if code.isValidChar then some (Char.ofNat code) else none

/-- The character that is meant by what follows a backslash, and how long that is. -/
def escape? : List Char → Option (Char × Nat)
  | [] => none
  | c :: rest =>
    let digits := match c with
      | 'x' => 2
      | 'u' => 4
      | 'U' => 8
      | _ => 0
    if digits = 0 then (escapes.lookup c).map (·, 1)
    else ((hex? 0 digits rest).bind charOf?).map (·, digits + 1)

/-- The text up to a blank, a line break or the closing quote, and whether it ended with an escaped
line break. -/
def word (double : Bool) : Nat → List Char → Cursor → Option (List Char × Bool × Cursor)
  | 0, text, cursor => some (text, false, cursor)
  | fuel + 1, text, cursor =>
    match cursor.rest with
    | [] => some (text, false, cursor)
    | c :: rest =>
      if isGap c || (double && c == doubleQuote) then some (text, false, cursor)
      else if !double && c == singleQuote then
        if nextIs (· == singleQuote) rest then word double fuel (text ++ [c]) (cursor.skip 2)
        else some (text, false, cursor)
      else if double && c == '\\' then
        if nextIs isBreak rest then some (text, true, cursor.skip 2)
        else (escape? rest).bind fun (meant, length) ↦
          word double fuel (text ++ [meant]) (cursor.skip (length + 1))
      else word double fuel (text ++ [c]) cursor.next

/-- The text up to the closing quote, and the place after that quote. -/
def lines (double : Bool) (indent : Int) :
    Nat → List Char → Cursor → Option (List Char × Cursor)
  | 0, _, _ => none
  | fuel + 1, text, cursor =>
    if cursor.atDocumentMark || cursor.rest.isEmpty || cursor.column < indent then none
    else do
      let (text, escaped, stop) ← word double (cursor.rest.length + 1) text cursor
      if stop.isAt (if double then doubleQuote else singleQuote) then
        return (text, stop.next)
      let (gap, stop) ← Gap.read true indent (if escaped then .afterEscape else .empty) stop
      lines double indent fuel (text ++ gap.fold) stop

/-- Reads a scalar from its opening quote on. -/
def read (double : Bool) (indent : Int) (cursor : Cursor) : Option (String × Cursor) :=
  (lines double indent (cursor.rest.length + 1) [] cursor.next).map fun (text, stop) ↦
    (String.ofList text, stop)

end Toolpath.Yaml.Quoted
