import Toolpath.Cell.Document
import Toolpath.Demo.Invocation
import Toolpath.Demo.Report
import Toolpath.Demo.Square

/-!
The demo as a function of its arguments: what it prints, what it complains about, and its exit
status. It runs on a preset arm or on a cell that is described in a file.
-/

set_option autoImplicit false
set_option relaxedAutoImplicit false

namespace Toolpath.Demo

structure Outcome where
  status : Nat
  output : List String
  complaints : List String

/-- The status after wrong arguments. -/
def misuseStatus : Nat := 2

def versionLine : String := "rs-robot-program 0.3.0"

def helpLines : List String :=
  ["Compiles a demo program and prints its diagnostics and playback",
    "",
    "Usage: rs-robot-program [OPTIONS]",
    "",
    "Options:",
    "      --cell <CELL>        Robot cell in YAML. A preset arm is used when not given",
    "      --robot <ROBOT>      Preset arm: irb4600, irb120, ur5e, ur10e or iiwa7 " ++
      "[default: irb4600]",
    "      --track              Mount the preset arm on a 4 m floor track",
    "      --turntable          Add a turntable next to the preset arm",
    "      --home <HOME>        Start joints in radians, comma separated. Defaults to a pose of " ++
      "the preset arm",
    "      --size <SIZE>        Side of the square, mm [default: 200]",
    "      --step <STEP>        Subdivision length of linear motions, mm [default: 10]",
    "      --samples <SAMPLES>  Number of playback samples to print [default: 5]",
    "  -h, --help               Print help",
    "  -V, --version            Print version"]

namespace Outcome

def success (output : List String) : Outcome :=
  ⟨0, output, []⟩

/-- Ends with a complaint after what was printed before. -/
def failure (output : List String) (message : String) (causes : List String) : Outcome :=
  ⟨1, output, ("Error: " ++ message) :: causes⟩

def misuse : Outcome :=
  ⟨misuseStatus, [], ["error: invalid arguments"]⟩

end Outcome

/-- The complaint about a file that is not there. -/
def noFile : String := "No such file or directory (os error 2)"

variable {α : Type} [Scalar α] [DecimalText α]

def Problem.message : Problem α → String
  | start group fault => "start joints of robot " ++ toString group ++ ": " ++ fault.message
  | program error => error.message

/-- Compiles the program of the demo and tells about it. -/
def present (options : Options) (cell : Cell α) (home : List α) : Outcome :=
  let number (given : Option Decimal.Written) (default : α) : α :=
    (given.map DecimalText.ofWritten).getD default
  let compiled := do
    let toolpaths ← toolpaths cell home (number options.size 200.0)
    (Program.compile "Square" cell toolpaths (number options.step 10.0)).mapError Problem.program
  match compiled with
  | .error problem => .failure [] problem.message []
  | .ok program =>
    let shares := sampleShares (options.samples.getD 5)
    let (lines, error) := playbackLines program .start shares
    match error with
    | none => .success (programLines program ++ lines)
    | some error => .failure (programLines program ++ lines) error.message []

/-- The demo on the cell in a file, whose text is `none` where it cannot be read. -/
def presentFile (options : Options) (home : Option (List α)) (text : Option String) : Outcome :=
  match text with
  | none => .failure [] ("IO Error: " ++ noFile) ["", "Caused by:", "    " ++ noFile]
  | some text =>
    match Cell.ofYaml (α := α) text with
    | .error error => .failure [] error.message []
    | .ok cell =>
      match home with
      | none => .failure [] "--home is required with --cell" []
      | some home => present options cell home

def presentPreset (options : Options) (home : Option (List α)) : Outcome :=
  let name := String.ofList ((options.robot.getD "irb4600").toList.map Char.toLower)
  match preset? (α := α) name with
  | none => .failure [] ("unknown robot '" ++ name ++ "'") []
  | some (arm, start) =>
    present options (presetCell arm options.track options.turntable) (home.getD start)

variable (α) in
/-- What the demo does with its arguments; `fileText` is the text of a file that can be read. -/
def outcome (fileText : String → Option String) (arguments : List String) : Outcome :=
  match Invocation.ofArguments arguments with
  | .help => .success helpLines
  | .version => .success [versionLine]
  | .misuse => .misuse
  | .run options =>
    let home : Option (List α) := options.home.map (·.map DecimalText.ofWritten)
    match options.cell with
    | some path => presentFile options home (fileText path)
    | none => presentPreset options home

end Toolpath.Demo
