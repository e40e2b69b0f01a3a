/-
Module: Handheld.Main
Purpose: The program on the file system and the standard streams of the machine it runs on.
Main exports: main
-/
import Handheld.CommandLine.Session

namespace Handheld.CommandLine

/-- The reason with the number `code`, which some calls report negated. -/
def FileError.ofCode (code : UInt32) (reason : String) : FileError :=
  match (min code (0 - code)).toNat with
  | 2 => .notFound
  | 20 => .notDirectory
  | 21 => .isDirectory
  | 28 => .noSpace
  | 36 => .nameTooLong
  | _ => .other reason

/-- The reason behind an error that the system has reported. -/
def FileError.ofSystem (error : IO.Error) : FileError :=
  match error with
  | .noFileOrDirectory _ code _ | .inappropriateType _ code _ | .resourceExhausted _ code _
  | .invalidArgument _ code _ => .ofCode code (toString error)
  | _ => .other (toString error)

/-- The files of the machine. -/
instance : Files IO where
  read path := do
    match ← (IO.FS.readBinFile path).toBaseIO with
    | .ok content => return .ok content.data
    | .error error => return .error (.ofSystem error)
  write path content := do
    match ← (IO.FS.writeBinFile path ⟨content⟩).toBaseIO with
    | .ok () => return .ok ()
    | .error error => return .error (.ofSystem error)

end Handheld.CommandLine

/-- Run the program, print what it says, and answer with its exit status. -/
def main (arguments : List String) : IO UInt32 := do
  let outcome ← (Handheld.CommandLine.commandLine arguments : IO Handheld.CommandLine.Outcome)
  IO.print outcome.output
  IO.eprint outcome.errors
  return outcome.status
