/-
Module: Handheld.CommandLine.Session
Purpose: A run of the program. It loads a cartridge image, lets the console run for some frames
  while buttons are held, and writes the last picture.
Main exports: Failure, Stop, play, picture, run, Outcome, execute, commandLine
-/
import Handheld.CommandLine.Arguments
import Handheld.CommandLine.Files
import Handheld.Console

namespace Handheld.CommandLine

/-- Why a run failed. -/
inductive Failure where
  /-- Buttons are to be held, but no frame is to be run. -/
  | idleHolds
  | romUnreadable (path : String) (error : FileError)
  | romRefused (path : String) (error : Cartridge.LoadError)
  | stopped (frame : Nat) (fault : Fault)
  | pictureUnwritable (path : String) (error : FileError)
deriving DecidableEq, Repr

namespace Failure

/-- What failed. -/
def message : Failure → String
  | .idleHolds => "--hold has no effect when running zero frames"
  | .romUnreadable path _ => "failed to read ROM '" ++ path ++ "'"
  | .romRefused path _ => "failed to load '" ++ path ++ "'"
  | .stopped frame _ => "emulation stopped during frame " ++ toString frame
  | .pictureUnwritable path _ => "failed to write '" ++ path ++ "'"

/-- Why it failed, where there is more to say. -/
def cause? : Failure → Option String
  | .idleHolds => none
  | .romUnreadable _ error => some error.message
  | .romRefused _ error => some error.message
  | .stopped _ fault => some fault.message
  | .pictureUnwritable _ error => some error.message

/-- The text that tells of a failure. -/
def report (f : Failure) : String :=
  "Error: " ++ f.message ++
    match f.cause? with
    | none => "\n"
    | some cause => "\n\nCaused by:\n    " ++ cause ++ "\n"

end Failure

/-- How a run stops before its work is done. -/
inductive Stop where
  | failed (failure : Failure)
  /-- A frame takes more steps than are allowed; without a limit the run would go on. -/
  | outOfSteps
deriving DecidableEq, Repr

/-- The buttons whose holding begins with frame `frame`, in the order in which they were given. -/
def buttonsFrom (holds : List Hold) (frame : Nat) : List Button :=
  (holds.filter fun hold => hold.frame.toNat = frame).map Hold.button

/-- Run `remaining` frames, of which `frame` is the first, each with no more than `limit` steps.
    Before a frame the buttons are pressed whose holding begins with it; they are never let go. What
    the console has noted is dropped. -/
def play (limit : Nat) (holds : List Hold) :
    (remaining frame : Nat) → Console → Except Stop Console
  | 0, _, c => .ok c
  | remaining + 1, frame, c =>
    match ((buttonsFrom holds frame).foldl Console.press c).runFrame limit with
    | (.fault fault, _) => .error (.failed (.stopped frame fault))
    | (.unfinished, _) => .error .outOfSteps
    | (.done, c) => play limit holds remaining (frame + 1) c.takeNotes.2

/-- The picture that is on the screen after the run, as RGB bytes. -/
def picture (limit : Nat) (rom : Array UInt8) (arguments : Arguments) :
    Except Stop (List UInt8) :=
  match (Console.powerOn rom {}).1 with
  | .error error => .error (.failed (.romRefused arguments.romPath error))
  | .ok c =>
    match play limit arguments.holds arguments.frames.toNat 0 c with
    | .error stop => .error stop
    | .ok c => .ok (c.frame.renderRgb (List.replicate Picture.rgbSize 0))

/-- A whole run, from one file to the other, with no more than `limit` steps a frame. -/
def run {m : Type → Type} [Monad m] [Files m] (limit : Nat) (arguments : Arguments) :
    m (Except Stop Unit) := do
  if arguments.frames = 0 ∧ arguments.holds ≠ [] then return .error (.failed .idleHolds)
  match ← Files.read arguments.romPath with
  | .error error => return .error (.failed (.romUnreadable arguments.romPath error))
  | .ok rom =>
    match picture limit rom arguments with
    | .error stop => return .error stop
    | .ok bytes =>
      match ← Files.write arguments.outPath bytes.toArray with
      | .error error => return .error (.failed (.pictureUnwritable arguments.outPath error))
      | .ok () => return .ok ()

/-- What the caller of the program sees: its exit status, and the texts on both of its outputs. The
    lines that the program logs on the way are not among them. -/
structure Outcome where
  status : UInt32 := 0
  output : String := ""
  errors : String := ""
deriving DecidableEq, Repr

/-- The line that shows how the program is called. -/
def usage : String :=
  "Usage: dotboy [OPTIONS] <ROM_PATH> <FRAMES> <OUT_PATH>\n"

/-- What the program says when asked for help, which begins with the description of its package. -/
def help : String :=
  "Headless runner for the dotboy emulation core\n\n" ++ usage ++ "
Arguments:
  <ROM_PATH>  Path to ROM file
  <FRAMES>    Number of frames to run
  <OUT_PATH>  Output path for the 160x144 RGB24 frame

Options:
      --hold <BUTTON@FRAME>  Press BUTTON from FRAME on, e.g. `start@60` (repeatable)
  -h, --help                 Print help
  -V, --version              Print version
"

/-- What the program says when asked for its version. -/
def version : String :=
  "dotboy 0.1.0\n"

/-- The text that tells of refused arguments, for a reader who is no terminal. A sequence that a
    reason has left open hides what follows, up to the next mark. -/
def UsageError.report (error : UsageError) : String :=
  Text.plain ("error: " ++ error.message ++ "\n\nFor more information, try '"
    ++ Text.mark "--help" ++ "'.\n")

/-- The outcome of arguments that were refused. -/
def Outcome.ofUsageError (error : UsageError) : Outcome :=
  { status := 2, errors := error.report }

/-- The outcome of a run, which has none as long as it would go on. -/
def Outcome.ofRun : Except Stop Unit → Option Outcome
  | .ok () => some {}
  | .error (.failed failure) => some { status := 1, errors := failure.report }
  | .error .outOfSteps => none

/-- The program: what its arguments ask for, as `parse` reads them, with no more than `limit` steps a
    frame. -/
def execute {m : Type → Type} [Monad m] [Files m]
    (parse : List String → Except UsageError Request) (limit : Nat) (arguments : List String) :
    m (Option Outcome) :=
  match parse arguments with
  | .error error => return some (.ofUsageError error)
  | .ok .help => return some { output := help }
  | .ok .version => return some { output := version }
  | .ok (.run arguments) => do return Outcome.ofRun (← run limit arguments)

/-- The program with its own reading of arguments. A run that does not get by with the steps that are
    allowed is given up without a word. -/
def commandLine {m : Type → Type} [Monad m] [Files m] (arguments : List String) : m Outcome := do
  return (← execute Request.parse Console.frameLimit arguments).getD { status := 1 }

end Handheld.CommandLine
