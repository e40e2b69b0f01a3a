/-
Module: Handheld.Joypad
Purpose: The joypad: which buttons are held, which group of them its register shows, and the request
  to leave STOP that every new press makes.
Main exports: Joypad, Joypad.press?, Joypad.release, Joypad.read, Joypad.write, Joypad.takeWake
-/
import Handheld.Button

namespace Handheld

/-- The select bit of the direction group, which is shown while the bit is zero. -/
def directionSelect : UInt8 := 0x10

/-- The select bit of the action group, which is shown while the bit is zero. -/
def actionSelect : UInt8 := 0x20

/-- The bit of a button within its group. -/
def Button.bit : Button → UInt8
  | .right | .a => 0x01
  | .left | .b => 0x02
  | .up | .select => 0x04
  | .down | .start => 0x08

/-- The select bit of a button's group. -/
def Button.groupSelect (button : Button) : UInt8 :=
  if button.isDirection then directionSelect else actionSelect

/-- The joypad. -/
structure Joypad where
  selected : UInt8 := directionSelect ||| actionSelect
  /-- The held buttons of the direction group. -/
  directions : UInt8 := 0
  /-- The held buttons of the action group. -/
  actions : UInt8 := 0
  /-- A button has been pressed since the request was last taken. -/
  wake : Bool := false
deriving DecidableEq, Repr, Inhabited

namespace Joypad

/-- The held buttons of the group of `button`. -/
def group (j : Joypad) (button : Button) : UInt8 :=
  if button.isDirection then j.directions else j.actions

/-- Replace the held buttons of the group of `button`. -/
def setGroup (j : Joypad) (button : Button) (held : UInt8) : Joypad :=
  if button.isDirection then { j with directions := held } else { j with actions := held }

/-- Whether a button is held. -/
def isHeld (j : Joypad) (button : Button) : Bool :=
  j.group button &&& button.bit != 0

/-- Press a button. Nothing happens if it is held already; else a request to leave STOP is made, and
    the second answer says whether an interrupt is due, for which the register has to show the
    group. -/
def press? (j : Joypad) (button : Button) : Option (Joypad × Bool) :=
  if j.isHeld button then none
  else
    let j := { j.setGroup button (j.group button ||| button.bit) with wake := true }
    some (j, j.selected &&& button.groupSelect == 0)

/-- Let a button go. -/
def release (j : Joypad) (button : Button) : Joypad :=
  j.setGroup button (j.group button &&& ~~~button.bit)

/-- Read the register. The low nibble has a zero for each held button of a group that is shown, and
    the two highest bits are ones. -/
def read (j : Joypad) : UInt8 :=
  let directions := if j.selected &&& directionSelect == 0 then j.directions else 0
  let actions := if j.selected &&& actionSelect == 0 then j.actions else 0
  0xC0 ||| j.selected ||| (0x0F &&& ~~~directions &&& ~~~actions)

/-- Write the register: only the two select bits can be written. -/
def write (j : Joypad) (value : UInt8) : Joypad :=
  { j with selected := value &&& (directionSelect ||| actionSelect) }

/-- Take the request to leave STOP, if there is one. -/
def takeWake (j : Joypad) : Bool × Joypad :=
  (j.wake, { j with wake := false })

end Joypad

end Handheld
