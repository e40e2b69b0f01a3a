/-
Module: Handheld.Note
Purpose: What the console tells an observer while it is built and runs. A note is the event with its
  data; one function gives its level and one its wording.
Main exports: Note, Note.Level, Note.level, Note.text, Note.line
-/
import Handheld.Button
import Handheld.Interrupt
import Handheld.Picture.Mode
import Handheld.Processor.Fault

namespace Handheld

/-- An event worth telling. -/
inductive Note where
  /-- The stored header checksum differs from the computed one. -/
  | checksumMismatch (stored computed : UInt8)
  /-- A cartridge has been accepted. -/
  | cartridgeAccepted (title : String) (kind : UInt8) (romSize ramSize : Nat)
  /-- An MBC1 cartridge shows another ROM bank. -/
  | mbc1Bank (bank : Nat) (low high : UInt8)
  /-- An MBC5 cartridge shows another ROM bank. -/
  | mbc5Bank (bank : UInt16)
  /-- A button press has ended STOP. -/
  | leftStop
  /-- An interrupt is being serviced; `returnTo` has been pushed. -/
  | interruptTaken (line : LineSet) (vector returnTo sp : UInt16)
  /-- The processor has locked up; the words are its registers at that moment. -/
  | locked (fault : Fault) (sp af bc de hl : UInt16)
  /-- The sound unit has been switched off. -/
  | soundOff
  /-- The raster has left the screen from line `last` to line `first`. -/
  | vblankEntered (last first : UInt8) (requests : UInt8)
  /-- One of the selected status sources has become active. -/
  | statRose (line : UInt8) (mode : Picture.Mode) (requests : UInt8)
  | lcdOn
  | lcdOff (line : UInt8)
  /-- A button that was up is down; `shown` is what the joypad register reads now. -/
  | pressed (button : Button) (shown : UInt8)
deriving DecidableEq, Repr

namespace Note

/-- How grave a note is. -/
inductive Level where
  | error
  | warn
  | debug
deriving DecidableEq, Repr

/-- The word for a level. -/
def Level.label : Level → String
  | .error => "ERROR"
  | .warn => "WARN"
  | .debug => "DEBUG"

/-- A lock-up is an error and a wrong checksum a warning; all else is for debugging. -/
def level : Note → Level
  | .locked .. => .error
  | .checksumMismatch .. => .warn
  | _ => .debug

/-- The wording of a note. -/
def text : Note → String
  | .checksumMismatch stored computed =>
    "GB cartridge: header checksum mismatch (stored " ++ Text.hexByte stored
      ++ ", computed " ++ Text.hexByte computed ++ ")"
  | .cartridgeAccepted title kind romSize ramSize =>
    "GB cartridge: \"" ++ title ++ "\" type=" ++ Text.hexByte kind ++ " rom=" ++ toString romSize
      ++ " bytes ram=" ++ toString ramSize ++ " bytes"
  | .mbc1Bank bank low high =>
    "GB MBC1: ROM bank -> " ++ toString bank ++ " (BANK1=" ++ Text.hexByte low
      ++ " BANK2=" ++ Text.hexByte high ++ ")"
  | .mbc5Bank bank => "GB MBC5: ROM bank -> " ++ toString bank
  | .leftStop => "GB CPU: leaving STOP on joypad press"
  | .interruptTaken line vector returnTo sp =>
    "GB CPU interrupt: " ++ line.describe ++ " vector=" ++ Text.hexWord vector
      ++ " pc=" ++ Text.hexWord returnTo ++ " sp=" ++ Text.hexWord sp
  | .locked fault sp af bc de hl =>
    "GB CPU locked: invalid opcode " ++ Text.hexByte fault.opcode
      ++ " at PC=" ++ Text.hexWord fault.address ++ " (SP=" ++ Text.hexWord sp
      ++ " AF=" ++ Text.hexWord af ++ " BC=" ++ Text.hexWord bc ++ " DE=" ++ Text.hexWord de
      ++ " HL=" ++ Text.hexWord hl ++ ")"
  | .soundOff => "GB sound: powered off"
  | .vblankEntered last first requests =>
    "GB PPU: VBlank edge (LY " ++ toString last ++ "->" ++ toString first
      ++ "), IF=" ++ Text.hexByte requests
  | .statRose line mode requests =>
    "GB PPU: STAT IRQ rising edge (LY=" ++ toString line ++ " mode=" ++ mode.label
      ++ " IF=" ++ Text.hexByte requests ++ ")"
  | .lcdOn => "GB PPU: LCD on"
  | .lcdOff line => "GB PPU: LCD off at LY=" ++ toString line
  | .pressed button shown =>
    "GB joypad: " ++ button.label ++ " pressed, P1=" ++ Text.hexByte shown

/-- A note as one line: its level and its wording. -/
def line (n : Note) : String :=
  n.level.label ++ " " ++ n.text

end Note

end Handheld
