/-
Module: Handheld.Timer
Purpose: The timer. A sixteen-bit divider counts clock cycles; the counter counts the falling edges
  of one of its bits while it is switched on, and asks for an interrupt when it overflows.
Main exports: Timer, Timer.Register, Timer.tick, Timer.advance, Timer.read, Timer.write
-/

namespace Handheld

/-- The timer, as a cartridge finds it: the divider has been counting since power-on. -/
structure Timer where
  divider : UInt16 := 0xABCC
  counter : UInt8 := 0
  /-- What the counter is loaded with when it overflows. -/
  modulo : UInt8 := 0
  /-- Bit 2 switches the counter on, and the two lower bits choose the divider bit to watch. -/
  control : UInt8 := 0
deriving DecidableEq, Repr, Inhabited

namespace Timer

/-- The divider bit that the counter watches. -/
def watched (t : Timer) : UInt16 :=
  match (t.control &&& 0x03).toNat with
  | 0 => 0x0200
  | 1 => 0x0008
  | 2 => 0x0020
  | _ => 0x0080

/-- The signal whose falling edges are counted: the watched bit, while the counter is on. -/
def signal (t : Timer) : Bool :=
  t.control &&& 0x04 != 0 && t.divider &&& t.watched != 0

/-- Count once. On overflow the counter is loaded anew and an interrupt is due. -/
def count (t : Timer) : Timer × Bool :=
  if t.counter = 0xFF then ({ t with counter := t.modulo }, true)
  else ({ t with counter := t.counter + 1 }, false)

/-- Make a change to the timer and count if the signal falls by it. The answer says whether an
    interrupt is due. -/
def change (t : Timer) (f : Timer → Timer) : Timer × Bool :=
  let after := f t
  if t.signal && !after.signal then after.count else (after, false)

/-- Let one clock cycle pass. -/
def tick (t : Timer) : Timer × Bool :=
  t.change fun t => { t with divider := t.divider + 1 }

/-- Let cycles pass after some from which an interrupt was `due` or not. -/
def advanceFrom : (cycles : Nat) → Timer → (due : Bool) → Timer × Bool
  | 0, t, due => (t, due)
  | cycles + 1, t, due =>
    let (t, overflow) := t.tick
    advanceFrom cycles t (due || overflow)

/-- Let `cycles` clock cycles pass. The answer says whether an interrupt has become due. -/
def advance (t : Timer) (cycles : Nat) : Timer × Bool :=
  advanceFrom cycles t false

/-- The four registers of the timer. -/
inductive Register where
  | divider
  | counter
  | modulo
  | control
deriving DecidableEq, Repr

/-- The register at an address. -/
def Register.ofAddress? (address : UInt16) : Option Register :=
  if address = 0xFF04 then some .divider
  else if address = 0xFF05 then some .counter
  else if address = 0xFF06 then some .modulo
  else if address = 0xFF07 then some .control
  else none

/-- Read a register: of the divider only the high byte shows, and the unused control bits read as
    ones. -/
def read (t : Timer) : Register → UInt8
  | .divider => (t.divider >>> 8).toUInt8
  | .counter => t.counter
  | .modulo => t.modulo
  | .control => t.control ||| 0xF8

/-- Write a register. Any write clears the divider, and clearing it or choosing another bit may make
    the signal fall. The answer says whether an interrupt is due. -/
def write (t : Timer) (register : Register) (value : UInt8) : Timer × Bool :=
  match register with
  | .divider => t.change fun t => { t with divider := 0 }
  | .counter => ({ t with counter := value }, false)
  | .modulo => ({ t with modulo := value }, false)
  | .control => t.change fun t => { t with control := value &&& 0x07 }

/-- Read by address; an address of another unit reads 0xFF. -/
def readAt (t : Timer) (address : UInt16) : UInt8 :=
  match Register.ofAddress? address with
  | some register => t.read register
  | none => 0xFF

/-- Advancing in two parts is advancing at once. -/
theorem advanceFrom_add (a b : Nat) (t : Timer) (due : Bool) :
    advanceFrom (a + b) t due = advanceFrom b (advanceFrom a t due).1 (advanceFrom a t due).2 := by
  induction a generalizing t due with
  | zero => simp [advanceFrom]
  | succ a ih => rw [Nat.add_right_comm]; simp only [advanceFrom]; exact ih _ _

end Timer

end Handheld
