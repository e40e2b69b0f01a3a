/-
Module: Handheld.Processor.Registers
Purpose: The register file: eight bytes, the stack pointer and the program counter, with the
  register pairs and the four flags as views.
Main exports: Registers, Reg, Pair, StackPair, Flag, Flags
-/
import Handheld.Word

namespace Handheld

/-- The flags of the F register. -/
inductive Flag where
  | zero
  | subtract
  | halfCarry
  | carry
deriving DecidableEq, Repr

/-- The bit of a flag in F; the four lower bits carry none. -/
def Flag.mask : Flag → UInt8
  | .zero => 0x80
  | .subtract => 0x40
  | .halfCarry => 0x20
  | .carry => 0x10

/-- The four flags together, as an arithmetic operation reports them. -/
structure Flags where
  zero : Bool
  subtract : Bool
  halfCarry : Bool
  carry : Bool
deriving DecidableEq, Repr

/-- The F byte that holds exactly these flags. -/
def Flags.toByte (f : Flags) : UInt8 :=
  (if f.zero then 0x80 else 0) ||| (if f.subtract then 0x40 else 0)
    ||| (if f.halfCarry then 0x20 else 0) ||| (if f.carry then 0x10 else 0)

/-- The byte registers that an instruction can name. -/
inductive Reg where
  | b
  | c
  | d
  | e
  | h
  | l
  | a
deriving DecidableEq, Repr

/-- The words that arithmetic and immediate loads can name. -/
inductive Pair where
  | bc
  | de
  | hl
  | sp
deriving DecidableEq, Repr

/-- The words that can be pushed and popped: AF stands where `Pair` has SP. -/
inductive StackPair where
  | bc
  | de
  | hl
  | af
deriving DecidableEq, Repr

/-- The pair with number `i`, of which two bits count. -/
def Pair.ofIndex (i : Nat) : Pair :=
  match i % 4 with
  | 0 => .bc
  | 1 => .de
  | 2 => .hl
  | _ => .sp

/-- The stack pair with number `i`, of which two bits count. -/
def StackPair.ofIndex (i : Nat) : StackPair :=
  match i % 4 with
  | 0 => .bc
  | 1 => .de
  | 2 => .hl
  | _ => .af

/-- The register file. -/
structure Registers where
  a : UInt8 := 0
  f : UInt8 := 0
  b : UInt8 := 0
  c : UInt8 := 0
  d : UInt8 := 0
  e : UInt8 := 0
  h : UInt8 := 0
  l : UInt8 := 0
  sp : UInt16 := 0
  pc : UInt16 := 0
deriving DecidableEq, Repr, Inhabited

namespace Registers

/-- Whether a flag is set. -/
def flag (r : Registers) (flag : Flag) : Bool :=
  r.f &&& flag.mask != 0

/-- Set or clear one flag and leave the rest of F alone. -/
def setFlag (r : Registers) (flag : Flag) (value : Bool) : Registers :=
  { r with f := if value then r.f ||| flag.mask else r.f &&& ~~~flag.mask }

/-- Replace F by the byte of the given flags. -/
def setFlags (r : Registers) (flags : Flags) : Registers :=
  { r with f := flags.toByte }

/-- Clear every bit of F. -/
def clearFlags (r : Registers) : Registers :=
  { r with f := 0 }

/-- The contents of a byte register. -/
def get (r : Registers) : Reg → UInt8
  | .a => r.a
  | .b => r.b
  | .c => r.c
  | .d => r.d
  | .e => r.e
  | .h => r.h
  | .l => r.l

/-- Replace the contents of a byte register. -/
def set (r : Registers) (reg : Reg) (value : UInt8) : Registers :=
  match reg with
  | .a => { r with a := value }
  | .b => { r with b := value }
  | .c => { r with c := value }
  | .d => { r with d := value }
  | .e => { r with e := value }
  | .h => { r with h := value }
  | .l => { r with l := value }

/-- A and the four flags as a word: the low nibble of F does not take part. -/
def af (r : Registers) : UInt16 :=
  joinBytes r.a (r.f &&& 0xF0)

/-- B and C as a word. -/
def bc (r : Registers) : UInt16 :=
  joinBytes r.b r.c

/-- D and E as a word. -/
def de (r : Registers) : UInt16 :=
  joinBytes r.d r.e

/-- H and L as a word. -/
def hl (r : Registers) : UInt16 :=
  joinBytes r.h r.l

/-- Split a word over A and F; the low nibble of F becomes zero. -/
def setAF (r : Registers) (w : UInt16) : Registers :=
  { r with a := highByte w, f := lowByte w &&& 0xF0 }

/-- Split a word over B and C. -/
def setBC (r : Registers) (w : UInt16) : Registers :=
  { r with b := highByte w, c := lowByte w }

/-- Split a word over D and E. -/
def setDE (r : Registers) (w : UInt16) : Registers :=
  { r with d := highByte w, e := lowByte w }

/-- Split a word over H and L. -/
def setHL (r : Registers) (w : UInt16) : Registers :=
  { r with h := highByte w, l := lowByte w }

/-- The contents of a pair. -/
def pair (r : Registers) : Pair → UInt16
  | .bc => r.bc
  | .de => r.de
  | .hl => r.hl
  | .sp => r.sp

/-- Replace the contents of a pair. -/
def setPair (r : Registers) (p : Pair) (w : UInt16) : Registers :=
  match p with
  | .bc => r.setBC w
  | .de => r.setDE w
  | .hl => r.setHL w
  | .sp => { r with sp := w }

/-- The contents of a stack pair. -/
def stackPair (r : Registers) : StackPair → UInt16
  | .bc => r.bc
  | .de => r.de
  | .hl => r.hl
  | .af => r.af

/-- Replace the contents of a stack pair. -/
def setStackPair (r : Registers) (p : StackPair) (w : UInt16) : Registers :=
  match p with
  | .bc => r.setBC w
  | .de => r.setDE w
  | .hl => r.setHL w
  | .af => r.setAF w

end Registers

end Handheld
