/-!
Numbers as they are written in decimal: an optional sign, then digits with an optional point and an
optional power of ten, or the words `inf`, `infinity` and `nan` in any case. At least one digit
stands before or after the point. `DecimalText` is for numbers that can be read and written.
-/

set_option autoImplicit false
set_option relaxedAutoImplicit false

namespace Toolpath

namespace Decimal

/-- A written number: a word, or `digits * 10 ^ exponent` with a sign. -/
inductive Written where
  | nan
  | infinite (negative : Bool)
  | finite (negative : Bool) (digits : Nat) (exponent : Int)
  deriving DecidableEq, Repr

/-- Whether the text starts with a minus sign, and what follows the sign. -/
def splitSign : List Char → Bool × List Char
  | '-' :: rest => (true, rest)
  | '+' :: rest => (false, rest)
  | rest => (false, rest)

/-- The value of a run of decimal digits. -/
def digitsValue (digits : List Char) : Nat :=
  digits.foldl (fun value digit ↦ value * 10 + (digit.toNat - '0'.toNat)) 0

/-- A natural number written with digits alone, at least one. -/
def natural? (text : List Char) : Option Nat :=
  if text ≠ [] ∧ text.all Char.isDigit then some (digitsValue text) else none

/-- The power of ten written after the digits, zero where nothing is written. -/
def exponent? : List Char → Option Int
  | [] => some 0
  | mark :: rest =>
    if mark = 'e' ∨ mark = 'E' then
      let (negative, digits) := splitSign rest
      (natural? digits).map fun n ↦ if negative then -(n : Int) else n
    else none

/-- Digits, point and power of ten, as digits and exponent of the written value. -/
def unsigned? (text : List Char) : Option (Nat × Int) :=
  let whole := text.takeWhile Char.isDigit
  let rest := text.dropWhile Char.isDigit
  let (places, rest) := match rest with
    | '.' :: rest => (rest.takeWhile Char.isDigit, rest.dropWhile Char.isDigit)
    | rest => ([], rest)
  if whole = [] ∧ places = [] then none
  else (exponent? rest).map fun e ↦ (digitsValue (whole ++ places), e - places.length)

def written? (text : String) : Option Written :=
  let (negative, body) := splitSign text.toList
  match String.ofList (body.map Char.toLower) with
  | "inf" | "infinity" => some (.infinite negative)
  | "nan" => some .nan
  | _ => (unsigned? body).map fun (digits, exponent) ↦ .finite negative digits exponent

/-- A whole number as a written one. -/
def Written.ofInt (n : Int) : Written :=
  .finite (n < 0) n.natAbs 0

end Decimal

/-- Numbers with a decimal text: `fixed n x` has `n` places, `shortest x` has the fewest digits that
read back as `x`, and `ofWritten` is the number nearest to a written one. -/
class DecimalText (α : Type) where
  fixed : Nat → α → String
  shortest : α → String
  ofWritten : Decimal.Written → α

end Toolpath
