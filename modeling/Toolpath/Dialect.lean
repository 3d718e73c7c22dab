/-!
Makers of robot controllers, each with a dialect of its own for the commands of a program. Names are
read in any case of their ASCII letters.
-/

set_option autoImplicit false
set_option relaxedAutoImplicit false

namespace Toolpath

inductive Manufacturer where
  | abb
  | kuka
  | ur
  | staubli
  | frankaEmika
  | fanuc
  | other
  deriving DecidableEq, Repr

namespace Manufacturer

def all : List Manufacturer :=
  [abb, kuka, ur, staubli, frankaEmika, fanuc, other]

def toText : Manufacturer → String
  | abb => "ABB"
  | kuka => "KUKA"
  | ur => "UR"
  | staubli => "Staubli"
  | frankaEmika => "Franka Emika"
  | fanuc => "Fanuc"
  | other => "Other"

def ofText? (text : String) : Option Manufacturer :=
  match String.ofList (text.toList.map Char.toLower) with
  | "abb" => some abb
  | "kuka" => some kuka
  | "ur" | "universal robots" => some ur
  | "staubli" => some staubli
  | "franka" | "franka emika" | "frankaemika" => some frankaEmika
  | "fanuc" => some fanuc
  | "other" => some other
  | _ => none

/-- The complaint about a name that belongs to no manufacturer. -/
def unknownMessage (text : String) : String :=
  "unknown manufacturer '" ++ text ++ "'"

end Manufacturer

end Toolpath
