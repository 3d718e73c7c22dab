import Toolpath.Decimal.Written

/-!
The command line of the demo. Arguments are read from left to right; the first one that asks for the
help or the version, or that cannot be read, decides. An option takes its value after an equals sign
or from the next argument, and is given once; only `--home` may be given again, which adds values.
-/

set_option autoImplicit false
set_option relaxedAutoImplicit false

namespace Toolpath.Demo

/-- What was given on the command line. -/
structure Options where
  /-- The file that describes the cell. -/
  cell : Option String
  robot : Option String
  track : Bool
  turntable : Bool
  home : Option (List Decimal.Written)
  size : Option Decimal.Written
  step : Option Decimal.Written
  samples : Option Nat

inductive Invocation where
  | run (options : Options)
  | help
  | version
  /-- The arguments are wrong. -/
  | misuse

namespace Options

def none : Options :=
  ⟨.none, .none, false, false, .none, .none, .none, .none⟩

/-- A count of 64 bits, with an optional plus sign. -/
def count? (text : String) : Option Nat :=
  let digits := match text.toList with
    | '+' :: digits => digits
    | digits => digits
  (Decimal.natural? digits).filter (· < Nat.pow 2 64)

/-- Sets what is not set yet. -/
def setOnce {β : Type} (current value : Option β) : Option β :=
  match current with
  | some _ => .none
  | .none => value

/-- Gives a value to an option that takes one. -/
def assign? (options : Options) (name value : String) : Option Options :=
  match name with
  | "cell" =>
    (setOnce options.cell (if value = "" then .none else some value)).map fun cell ↦
      { options with cell := some cell }
  | "robot" => (setOnce options.robot (some value)).map fun robot ↦
    { options with robot := some robot }
  | "home" => ((value.splitOn ",").mapM Decimal.written?).map fun values ↦
    { options with home := some ((options.home.getD []) ++ values) }
  | "size" => (setOnce options.size (Decimal.written? value)).map fun size ↦
    { options with size := some size }
  | "step" => (setOnce options.step (Decimal.written? value)).map fun step ↦
    { options with step := some step }
  | "samples" => (setOnce options.samples (count? value)).map fun samples ↦
    { options with samples := some samples }
  | _ => .none

def takesValue (name : String) : Bool :=
  ["cell", "robot", "home", "size", "step", "samples"].contains name

/-- Turns on an option that takes no value. -/
def turnOn? (options : Options) (name : String) : Option Options :=
  match name with
  | "track" => if options.track then .none else some { options with track := true }
  | "turntable" => if options.turntable then .none else some { options with turntable := true }
  | _ => .none

/-- Whether an argument has the form of an option; the start joints may begin with a minus sign. -/
def looksLikeOption (name : String) (argument : String) : Bool :=
  name != "home" && argument.startsWith "-" && argument != "-"

end Options

namespace Invocation

/-- An argument that starts with two hyphens: its name and the value after an equals sign. -/
def long? (argument : String) : Option (String × Option String) :=
  match argument.toList with
  | '-' :: '-' :: text =>
    let name := String.ofList (text.takeWhile (· != '='))
    match text.dropWhile (· != '=') with
    | [] => some (name, none)
    | _ :: value => some (name, some (String.ofList value))
  | _ => none

/-- Reads the arguments, `pending` being an option that waits for its value. -/
def read (options : Options) (pending : Option String) : List String → Invocation
  | [] => if pending.isSome then misuse else run options
  | argument :: rest =>
    let proceed (result : Option Options) : Invocation :=
      match result with
      | some options => read options none rest
      | none => misuse
    match pending with
    | some name =>
      if Options.looksLikeOption name argument then misuse
      else proceed (options.assign? name argument)
    | none =>
      if argument = "--" then if rest.isEmpty then run options else misuse
      else match long? argument with
        | some ("help", none) => help
        | some ("version", none) => version
        | some (name, some value) => proceed (options.assign? name value)
        | some (name, none) =>
          if Options.takesValue name then read options (some name) rest
          else proceed (options.turnOn? name)
        | none => match argument.toList with
          | '-' :: 'h' :: _ => help
          | '-' :: 'V' :: _ => version
          | _ => misuse

def ofArguments (arguments : List String) : Invocation :=
  read .none none arguments

end Invocation

end Toolpath.Demo
