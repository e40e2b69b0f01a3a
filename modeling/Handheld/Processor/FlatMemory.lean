/-
Module: Handheld.Processor.FlatMemory
Purpose: The plainest machine a processor can run on: 64 KiB of memory and a wake request, with the
  interrupt bytes at their addresses but no unit behind them. A journal records the writes of any
  machine.
Main exports: FlatMemory, FlatMemory.get, FlatMemory.set, Journal
-/
import Handheld.Processor.Bus

namespace Handheld

/-- Memory at every address, and a request to leave STOP. -/
structure FlatMemory where
  cells : Vector UInt8 UInt16.size := Vector.replicate UInt16.size 0
  /-- The request to leave STOP. -/
  wake : Bool := false
  /-- Whether the processor can see the request. -/
  wakeWired : Bool := true

namespace FlatMemory

/-- The byte at an address. -/
def get (m : FlatMemory) (address : UInt16) : UInt8 :=
  have : address.toNat < UInt16.size := address.toNat_lt
  m.cells[address.toNat]

/-- Replace the byte at an address. -/
def set (m : FlatMemory) (address : UInt16) (value : UInt8) : FlatMemory :=
  { m with cells := m.cells.set address.toNat value address.toNat_lt }

/-- Write bytes one after the other, wrapping at the end of memory. -/
def setAll (m : FlatMemory) (address : UInt16) : List UInt8 → FlatMemory
  | [] => m
  | value :: rest => (m.set address value).setAll (address + 1) rest

/-- The `n` bytes from an address on, wrapping at the end of memory. -/
def getAll (m : FlatMemory) (address : UInt16) : Nat → List UInt8
  | 0 => []
  | n + 1 => m.get address :: m.getAll (address + 1) n

instance : Bus FlatMemory where
  read m address := (m.get address, m)
  write := set
  takeWake m := if m.wakeWired then (m.wake, { m with wake := false }) else (false, m)

/-- A write is read back where it was made. -/
@[simp] theorem get_set_self (m : FlatMemory) (address : UInt16) (value : UInt8) :
    (m.set address value).get address = value := by
  simp [get, set]

/-- A write changes no other address. -/
theorem get_set_ne (m : FlatMemory) {address other : UInt16} (value : UInt8)
    (h : other ≠ address) : (m.set address value).get other = m.get other := by
  have hne : address.toNat ≠ other.toNat := fun e => h (UInt16.toNat_inj.mp e.symm)
  simp [get, set, Vector.getElem_set_ne, hne]

end FlatMemory

/-- A machine with a record of the writes made to it, the latest first. -/
structure Journal (σ : Type) where
  bus : σ
  writes : List (UInt16 × UInt8) := []

instance {σ : Type} [Bus σ] : Bus (Journal σ) where
  read j address :=
    let (value, bus) := Bus.read j.bus address
    (value, { j with bus })
  write j address value := ⟨Bus.write j.bus address value, (address, value) :: j.writes⟩
  takeWake j :=
    let (wake, bus) := Bus.takeWake j.bus
    (wake, { j with bus })
  hear j note := { j with bus := Bus.hear j.bus note }

end Handheld
