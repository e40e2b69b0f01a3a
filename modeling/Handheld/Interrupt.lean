/-
Module: Handheld.Interrupt
Purpose: The five interrupt lines, sets of lines laid out as in the IE and IF registers, and the
  controller that holds which lines are enabled and which are requested.
Main exports: Interrupt, LineSet, LineSet.highest?, LineSet.vector, InterruptController
-/
import Handheld.Text.Hex

namespace Handheld

/-- The five interrupt lines, the most urgent first. -/
inductive Interrupt where
  | vblank
  | lcdStat
  | timer
  | serial
  | joypad
deriving DecidableEq, Repr, Inhabited

namespace Interrupt

/-- Every line, the most urgent first. -/
def all : List Interrupt :=
  [.vblank, .lcdStat, .timer, .serial, .joypad]

/-- The bit of the line in IE and IF. -/
def mask : Interrupt → UInt8
  | .vblank => 0x01
  | .lcdStat => 0x02
  | .timer => 0x04
  | .serial => 0x08
  | .joypad => 0x10

/-- The name that notes give the line. -/
def label : Interrupt → String
  | .vblank => "VBLANK"
  | .lcdStat => "LCD_STAT"
  | .timer => "TIMER"
  | .serial => "SERIAL"
  | .joypad => "JOYPAD"

end Interrupt

/-- A set of interrupt lines, one bit a line as in IE and IF. -/
structure LineSet where
  bits : UInt8
deriving DecidableEq, Repr, Inhabited

/-- The number of zero bits below the lowest one bit; eight for the byte without any. -/
def trailingZeros (b : UInt8) : Nat :=
  ((List.range 8).find? fun i => b.toNat.testBit i).getD 8

namespace LineSet

/-- The set that IE or IF holds when `b` is written to it: the three upper bits name no line. -/
def ofByte (b : UInt8) : LineSet :=
  ⟨b &&& 0x1F⟩

/-- The set of one line. -/
def only (line : Interrupt) : LineSet :=
  ⟨line.mask⟩

/-- Whether the set holds `line`. -/
def contains (s : LineSet) (line : Interrupt) : Bool :=
  s.bits &&& line.mask != 0

/-- The lines of either set. -/
def union (s t : LineSet) : LineSet :=
  ⟨s.bits ||| t.bits⟩

/-- The lines of both sets. -/
def inter (s t : LineSet) : LineSet :=
  ⟨s.bits &&& t.bits⟩

/-- The lines of `s` that are not in `t`. -/
def diff (s t : LineSet) : LineSet :=
  ⟨s.bits &&& ~~~t.bits⟩

/-- The most urgent line of the set, that is its lowest bit. A set whose lowest bit names no line
    answers with the empty set. -/
def highest? (s : LineSet) : Option LineSet :=
  if s.bits = 0 then none else some (ofByte (s.bits &&& (0 - s.bits)))

/-- The handler address of the most urgent line: eight bytes a line from 0x40 on. -/
def vector (s : LineSet) : UInt16 :=
  0x40 + 8 * (trailingZeros s.bits).toUInt16

/-- The lines of the set by name, or `0x0` for the empty set. -/
def describe (s : LineSet) : String :=
  let names := (Interrupt.all.filter s.contains).map Interrupt.label
  if names.isEmpty then "Interrupt(0x0)" else "Interrupt(" ++ " | ".intercalate names ++ ")"

/-- One line alone is its own most urgent line, and its handler stands at its place in the table. -/
theorem highest?_only (line : Interrupt) : (only line).highest? = some (only line) := by
  cases line <;> decide

end LineSet

/-- The interrupt controller: the enable byte IE and the requested lines IF. All eight bits of IE
    can be read back although only five matter. -/
structure InterruptController where
  enable : UInt8 := 0
  requested : LineSet := ⟨0⟩
deriving DecidableEq, Repr, Inhabited

namespace InterruptController

/-- Request `lines`; a line that is already requested stays so. -/
def raise (c : InterruptController) (lines : LineSet) : InterruptController :=
  { c with requested := c.requested.union lines }

/-- Withdraw the requests of `lines`. -/
def clear (c : InterruptController) (lines : LineSet) : InterruptController :=
  { c with requested := c.requested.diff lines }

/-- The lines that are both requested and enabled. -/
def pending (c : InterruptController) : LineSet :=
  c.requested.inter (.ofByte c.enable)

/-- The line to be serviced next. -/
def highest? (c : InterruptController) : Option LineSet :=
  c.pending.highest?

/-- The IF register: its three unused bits read as ones. -/
def readRequests (c : InterruptController) : UInt8 :=
  c.requested.bits ||| 0xE0

/-- Replace the requested lines by those of a written byte. -/
def writeRequests (c : InterruptController) (value : UInt8) : InterruptController :=
  { c with requested := .ofByte value }

end InterruptController

end Handheld
