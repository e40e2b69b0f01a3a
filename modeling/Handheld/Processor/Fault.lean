/-
Module: Handheld.Processor.Fault
Purpose: The one way in which the processor can fail: it has met a byte that is no instruction.
Main exports: Fault, Fault.message
-/
import Handheld.Text.Hex

namespace Handheld

/-- The processor has met an opcode without an instruction. -/
structure Fault where
  opcode : UInt8
  /-- One below the program counter after the opcode was fetched. -/
  address : UInt16
deriving DecidableEq, Repr, Inhabited

/-- The report of a fault. -/
def Fault.message (f : Fault) : String :=
  "unimplemented opcode " ++ Text.hexByte f.opcode ++ " at PC=" ++ Text.hexWord f.address

end Handheld
