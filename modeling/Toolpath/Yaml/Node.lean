import Toolpath.Decimal.Written
import Toolpath.Yaml.Character

/-!
The values of a YAML document, and what its scalars mean. A plain scalar is a number or a word with
a meaning where it has the form of one; a quoted scalar is a string.
-/

set_option autoImplicit false
set_option relaxedAutoImplicit false

namespace Toolpath.Yaml

inductive Node where
  /-- A scalar that does not fit its tag, or a reference to a node that is not complete. -/
  | invalid
  | null
  | bool (value : Bool)
  | integer (value : Int)
  | real (text : String) (value : Decimal.Written)
  | string (text : String)
  | list (items : List Node)
  | mapping (entries : List (Node × Node))

namespace Node

mutual

/-- Equality of nodes; real numbers are equal where they are written alike. -/
def same : Node → Node → Bool
  | invalid, invalid => true
  | null, null => true
  | bool a, bool b => a == b
  | integer a, integer b => a == b
  | real a _, real b _ => a == b
  | string a, string b => a == b
  | list as, list bs => sameItems as bs
  | mapping as, mapping bs => sameEntries as bs
  | _, _ => false

def sameItems : List Node → List Node → Bool
  | [], [] => true
  | a :: as, b :: bs => same a b && sameItems as bs
  | _, _ => false

def sameEntries : List (Node × Node) → List (Node × Node) → Bool
  | [], [] => true
  | (key, a) :: as, (key', b) :: bs => same key key' && same a b && sameEntries as bs
  | _, _ => false

end

/-- The value of a key in a mapping, `invalid` where there is none. -/
def get (node : Node) (key : String) : Node :=
  match node with
  | mapping entries =>
    ((entries.find? fun entry ↦ same entry.1 (string key)).map Prod.snd).getD invalid
  | _ => invalid

/-- The value of a key that is given a value other than null. -/
def field? (node : Node) (key : String) : Option Node :=
  match node.get key with
  | invalid => none
  | null => none
  | value => some value

def string? : Node → Option String
  | string text => some text
  | _ => none

def bool? : Node → Option Bool
  | bool value => some value
  | _ => none

def list? : Node → Option (List Node)
  | list items => some items
  | _ => none

def number? : Node → Option Decimal.Written
  | integer value => some (.ofInt value)
  | real _ value => some value
  | _ => none

/-- The entries of a mapping whose keys and values come in turn. An invalid key is dropped and the
next node takes its place; no key may be given twice. -/
def entries? : List (Node × Node) → List Node → Option (List (Node × Node))
  | found, [] => some found.reverse
  | found, invalid :: rest => entries? found rest
  | found, [_] => some found.reverse
  | found, key :: value :: rest =>
    if found.any fun entry ↦ same entry.1 key then none else entries? ((key, value) :: found) rest

/-- The value of digits in a base up to sixteen. -/
def digits? (base : Nat) (value : Nat) : List Char → Option Nat
  | [] => some value
  | c :: rest => (hexDigit? c).bind fun digit ↦
    if digit < base then digits? base (value * base + digit) rest else none

/-- A whole number of 64 bits with an optional sign. -/
def integer? (base : Nat) (text : List Char) : Option Int :=
  let (negative, digits) := Decimal.splitSign text
  if digits.isEmpty then none
  else (digits? base 0 digits).bind fun size ↦
    let value : Int := if negative then -(size : Int) else size
    if -Int.pow 2 63 ≤ value ∧ value < Int.pow 2 63 then some value else none

/-- A real number: a decimal number with a digit in it, or a word for infinity or no number. -/
def real? (text : String) : Option Decimal.Written :=
  match text with
  | ".inf" | ".Inf" | ".INF" | "+.inf" | "+.Inf" | "+.INF" => some (.infinite false)
  | "-.inf" | "-.Inf" | "-.INF" => some (.infinite true)
  | ".nan" | ".NaN" | ".NAN" => some .nan
  | _ => if text.toList.any Char.isDigit then Decimal.written? text else none

/-- A whole number with a mark of its base or with a plus sign. -/
def markedInteger? : List Char → Option Int
  | '0' :: 'x' :: digits => integer? 16 digits
  | '0' :: 'o' :: digits => integer? 8 digits
  | '+' :: digits => integer? 10 digits
  | _ => none

/-- The meaning of a plain scalar without a tag. -/
def ofPlain (text : String) : Node :=
  match markedInteger? text.toList with
  | some value => integer value
  | none => match text with
    | "" | "~" | "null" => null
    | "true" | "True" | "TRUE" => bool true
    | "false" | "False" | "FALSE" => bool false
    | _ => match integer? 10 text.toList with
      | some value => integer value
      | none => match real? text with
        | some value => real text value
        | none => string text

/-- The handle of the tags of the language itself. -/
def coreHandle : String := "tag:yaml.org,2002:"

/-- The meaning of a plain scalar with a tag: handle and suffix. -/
def ofTagged (handle suffix text : String) : Node :=
  if handle ≠ coreHandle then string text
  else match suffix with
    | "bool" => match text with
      | "true" => bool true
      | "false" => bool false
      | _ => invalid
    | "int" => ((integer? 10 text.toList).map integer).getD invalid
    | "float" => ((real? text).map (real text)).getD invalid
    | "null" => if text = "~" ∨ text = "null" then null else invalid
    | _ => string text

def ofScalar (plain : Bool) (tag : Option (String × String)) (text : String) : Node :=
  if !plain then string text
  else match tag with
    | none => ofPlain text
    | some (handle, suffix) => ofTagged handle suffix text

end Node

end Toolpath.Yaml
