import Toolpath.Command
import Toolpath.Decimal.Written

/-!
The code of instructions in the dialects of the manufacturers. An instruction that a dialect has no
word for has no code there. Numbers have a fixed count of places and a point.
-/

set_option autoImplicit false
set_option relaxedAutoImplicit false

namespace Toolpath

structure NumberFormat where
  places : Nat
  deriving DecidableEq, Repr

namespace NumberFormat

def standard : NumberFormat := ⟨3⟩

def text {α : Type} [DecimalText α] (format : NumberFormat) (value : α) : String :=
  DecimalText.fixed format.places value

end NumberFormat

variable {α : Type} [DecimalText α]

namespace Action

def waitCode? (seconds : String) : Manufacturer → Option String
  | .abb => some ("WaitTime " ++ seconds ++ ";")
  | .kuka => some ("WAIT SEC " ++ seconds)
  | .ur => some ("sleep(" ++ seconds ++ ")")
  | .staubli => some ("delay(" ++ seconds ++ ")")
  | .fanuc => some ("WAIT " ++ seconds ++ "(sec) ;")
  | .frankaEmika | .other => none

def setDigitalCode? (output : String) (value : Bool) : Manufacturer → Option String
  | .abb => some ("SetDO " ++ output ++ ", " ++ (if value then "1" else "0") ++ ";")
  | .kuka => some ("$OUT[" ++ output ++ "] = " ++ (if value then "TRUE" else "FALSE"))
  | .ur =>
    some ("set_standard_digital_out(" ++ output ++ ", " ++ (if value then "True" else "False") ++
      ")")
  | .fanuc => some ("DO[" ++ output ++ "]=" ++ (if value then "ON" else "OFF") ++ " ;")
  | .staubli | .frankaEmika | .other => none

def setAnalogCode? (output value : String) : Manufacturer → Option String
  | .abb => some ("SetAO " ++ output ++ ", " ++ value ++ ";")
  | .kuka => some ("$ANOUT[" ++ output ++ "] = " ++ value)
  | .ur => some ("set_standard_analog_out(" ++ output ++ ", " ++ value ++ ")")
  | .staubli | .frankaEmika | .fanuc | .other => none

def messageCode? (text : String) : Manufacturer → Option String
  | .abb => some ("TPWrite \"" ++ text ++ "\";")
  | .ur => some ("textmsg(\"" ++ text ++ "\")")
  | .fanuc => some ("MESSAGE[" ++ text ++ "] ;")
  | .kuka | .staubli | .frankaEmika | .other => none

def stopCode? : Manufacturer → Option String
  | .abb => some "Stop;"
  | .kuka => some "HALT"
  | .ur => some "halt"
  | .fanuc => some "PAUSE ;"
  | .staubli | .frankaEmika | .other => none

def code? (action : Action α) (format : NumberFormat) (maker : Manufacturer) : Option String :=
  match action with
  | wait seconds => waitCode? (format.text seconds) maker
  | setDigital output value => setDigitalCode? output value maker
  | setAnalog output value => setAnalogCode? output (format.text value) maker
  | message text => messageCode? text maker
  | stop => stopCode? maker
  | custom code => (code.find? fun entry ↦ entry.1 == maker).map Prod.snd

end Action

/-- The code of an instruction in the dialect of a manufacturer. -/
def Instruction.code? (instruction : Instruction α) (format : NumberFormat)
    (maker : Manufacturer) : Option String :=
  instruction.action.code? format maker

/-- The code of a command; a group has none of its own. -/
def Command.code? (command : Command α) (format : NumberFormat) (maker : Manufacturer) :
    Option String :=
  match command with
  | .single instruction => instruction.code? format maker
  | .group _ _ _ => none

end Toolpath
