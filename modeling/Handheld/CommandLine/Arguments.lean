/-
Module: Handheld.CommandLine.Arguments
Purpose: The arguments of the program: three positional ones, the repeatable option `--hold`, and
  the requests for help and for the version.
Main exports: Arguments, Request, UsageError, Request.parse
-/
import Handheld.CommandLine.Hold
import Handheld.Text.Terminal

namespace Handheld.CommandLine

/-- What a run needs to know. -/
structure Arguments where
  romPath : String
  frames : UInt32
  outPath : String
  holds : List Hold
deriving DecidableEq, Repr

/-- What the user wants. -/
inductive Request where
  | run (arguments : Arguments)
  | help
  | version
deriving DecidableEq, Repr

/-- A place that takes a value. -/
inductive Slot where
  | romPath
  | frames
  | outPath
  | hold
deriving DecidableEq, Repr

/-- The name of a place, as the usage line writes it. -/
def Slot.label : Slot → String
  | .romPath => "<ROM_PATH>"
  | .frames => "<FRAMES>"
  | .outPath => "<OUT_PATH>"
  | .hold => "--hold <BUTTON@FRAME>"

/-- The places of the positional arguments, in order. -/
def Slot.positional : List Slot :=
  [.romPath, .frames, .outPath]

/-- Why a text is not a number of frames. -/
inductive FramesError where
  | notInteger (error : Text.NumberError)
  | outOfRange (value : Int)
deriving DecidableEq, Repr

/-- The complaint about a text that is not a number of frames. -/
def FramesError.message : FramesError → String
  | .notInteger error => error.message
  | .outOfRange value => toString value ++ " is not in 0..=" ++ toString lastFrame

/-- Why arguments were refused. -/
inductive UsageError where
  /-- Positional arguments are missing. -/
  | missingArguments (slots : List Slot)
  /-- There is no such option, or no place left for a positional argument. -/
  | unexpected (argument : String)
  /-- An option that takes no value was given one. -/
  | unneededValue (value option : String)
  | missingValue (slot : Slot)
  | invalidFrames (value : String) (error : FramesError)
  | invalidHold (value : String) (error : HoldError)
deriving DecidableEq, Repr

namespace UsageError

/-- The wording of a value that a place does not take. -/
def invalidValue (value : String) (slot : Slot) (reason : String) : String :=
  "invalid value '" ++ Text.mark value ++ "' for '" ++ Text.mark slot.label ++ "': " ++ reason

/-- The complaint about arguments that were refused. What the user wrote is set off; a reason may
    repeat it as it is. -/
def message : UsageError → String
  | .missingArguments slots =>
    "the following required arguments were not provided:"
      ++ String.join (slots.map fun slot => "\n  " ++ Text.mark slot.label)
  | .unexpected argument => "unexpected argument '" ++ Text.mark argument ++ "' found"
  | .unneededValue value option =>
    "unexpected value '" ++ Text.mark value ++ "' for '" ++ Text.mark option
      ++ "' found; no more were expected"
  | .missingValue slot =>
    "a value is required for '" ++ Text.mark slot.label ++ "' but none was supplied"
  | .invalidFrames value error => invalidValue value .frames error.message
  | .invalidHold value error => invalidValue value .hold error.message

end UsageError

/-- Read a number of frames. The text is read as a 64-bit number first, so that the complaint about
    a negative or a large number can name it. -/
def parseFrames (s : String) : Except FramesError UInt32 :=
  match Text.integer 0x7FFFFFFFFFFFFFFF s.toList with
  | .error error => .error (.notInteger error)
  | .ok value =>
    if 0 ≤ value ∧ value ≤ lastFrame then .ok (UInt32.ofNat value.toNat)
    else .error (.outOfRange value)

/-- What a single argument looks like. -/
inductive Shape where
  /-- Two dashes alone: everything behind them is positional. -/
  | separator
  | long (name : String) (value? : Option String)
  /-- One dash and letters, of which the first decides. -/
  | short (letter : Char)
  | plain
deriving DecidableEq, Repr

/-- The shape of an argument. A dash alone is plain, and so is the empty text. -/
def Shape.ofArgument (argument : String) : Shape :=
  match argument.toList with
  | ['-', '-'] => .separator
  | '-' :: '-' :: rest =>
    match cutAt '=' rest with
    | some (name, value) => .long (String.ofList name) (some (String.ofList value))
    | none => .long (String.ofList rest) none
  | '-' :: letter :: _ => .short letter
  | _ => .plain

/-- A value that has been announced: the place is known, and perhaps the value. It is looked at only
    when the next argument comes or the arguments end. -/
structure Pending where
  slot : Slot
  value? : Option String
deriving DecidableEq, Repr

/-- The arguments read so far. -/
structure Reader where
  romPath? : Option String := none
  frames? : Option UInt32 := none
  outPath? : Option String := none
  holds : List Hold := []
  /-- The positional places that no argument has gone to, in order. -/
  free : List Slot := Slot.positional
  pending : Option Pending := none
deriving DecidableEq, Repr

namespace Reader

/-- Put a value into its place. A path must not be empty. -/
def fill (r : Reader) (slot : Slot) (value : String) : Except UsageError Reader :=
  match slot with
  | .romPath =>
    if value.isEmpty then .error (.missingValue slot) else .ok { r with romPath? := some value }
  | .outPath =>
    if value.isEmpty then .error (.missingValue slot) else .ok { r with outPath? := some value }
  | .frames =>
    match parseFrames value with
    | .error error => .error (.invalidFrames value error)
    | .ok frames => .ok { r with frames? := some frames }
  | .hold =>
    match Hold.parse value with
    | .error error => .error (.invalidHold value error)
    | .ok hold => .ok { r with holds := r.holds ++ [hold] }

/-- Look at the value that is pending. -/
def settle (r : Reader) : Except UsageError Reader :=
  match r.pending with
  | none => .ok r
  | some ⟨slot, none⟩ => .error (.missingValue slot)
  | some ⟨slot, some value⟩ => { r with pending := none }.fill slot value

/-- Take a positional argument. -/
def position (r : Reader) (argument : String) : Except UsageError Reader :=
  match r.free with
  | [] => .error (.unexpected argument)
  | slot :: free => do
    let r ← r.settle
    return { r with free, pending := some ⟨slot, some argument⟩ }

/-- Take a plain argument: the value of the option before it, or a positional one. -/
def plain (r : Reader) (argument : String) : Except UsageError Reader :=
  match r.pending with
  | some ⟨slot, none⟩ => .ok { r with pending := some ⟨slot, some argument⟩ }
  | _ => r.position argument

/-- The end of the arguments: the last value is looked at, and the three positional ones must have
    been given. -/
def finish (r : Reader) : Except UsageError Request := do
  let r ← r.settle
  match r.romPath?, r.frames?, r.outPath? with
  | some romPath, some frames, some outPath =>
    return .run { romPath, frames, outPath, holds := r.holds }
  | _, _, _ => throw (.missingArguments r.free)

/-- Read arguments. A request for help or for the version ends the reading, and so does the first
    fault. An option that does not exist is a graver fault than a pending value. -/
def read (r : Reader) : List String → Except UsageError Request
  | [] => r.finish
  | argument :: rest =>
    match Shape.ofArgument argument with
    | .separator => do (← rest.foldlM position r).finish
    | .plain => do (← r.plain argument).read rest
    | .short 'h' => do let _ ← r.settle; return .help
    | .short 'V' => do let _ ← r.settle; return .version
    | .short letter => throw (.unexpected (String.ofList ['-', letter]))
    | .long "hold" (some value) => do
      let r ← r.settle
      (← r.fill .hold value).read rest
    | .long "hold" none => do
      let r ← r.settle
      { r with pending := some ⟨.hold, none⟩ }.read rest
    | .long "help" none => do let _ ← r.settle; return .help
    | .long "version" none => do let _ ← r.settle; return .version
    | .long "help" (some value) => throw (.unneededValue value "--help")
    | .long "version" (some value) => throw (.unneededValue value "--version")
    | .long name _ => throw (.unexpected ("--" ++ name))

end Reader

/-- Read the arguments of the program. -/
def Request.parse (arguments : List String) : Except UsageError Request :=
  Reader.read {} arguments

end Handheld.CommandLine
