/-
Module: Handheld.Processor.Bus
Purpose: What the processor needs of the machine around it: a byte at each of 65536 addresses, the
  request that ends STOP, and an ear for its notes.
Main exports: Bus
-/
import Handheld.Note

namespace Handheld

/-- A machine state that the processor can address. Every address answers a read, and a read may
    change the state. -/
class Bus (σ : Type) where
  /-- Read a byte. -/
  read : σ → UInt16 → UInt8 × σ
  /-- Write a byte. -/
  write : σ → UInt16 → UInt8 → σ
  /-- Take the request to leave STOP, if there is one. A machine without buttons has none. -/
  takeWake : σ → Bool × σ := fun bus => (false, bus)
  /-- Hear of an event inside the processor. A machine need not listen. -/
  hear : σ → Note → σ := fun bus _ => bus

end Handheld
