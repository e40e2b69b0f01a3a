/-
Module: Handheld.Board.RamFill
Purpose: What the RAM of the console holds at power-on: zeros, or noise that a seed determines.
Main exports: RamFill, RamFill.bytes, noiseStep
-/

namespace Handheld

/-- The contents of RAM at power-on. -/
inductive RamFill where
  | zeros
  | noise (seed : UInt32)
deriving DecidableEq, Repr

/-- Noise from the seed that is used unless another is given. -/
def RamFill.standard : RamFill :=
  .noise 0xC0DE1234

/-- The next state of the noise generator, a shift-register generator with shifts 13, 17 and 5. -/
def noiseStep (x : UInt32) : UInt32 :=
  let x := x ^^^ x <<< 13
  let x := x ^^^ x >>> 17
  x ^^^ x <<< 5

/-- The next `n` bytes of noise, each the low byte of a new state, and the last state. -/
def noiseBytes : (n : Nat) → UInt32 → Vector UInt8 n × UInt32
  | 0, x => (#v[], x)
  | n + 1, x =>
    let (bytes, x) := noiseBytes n x
    let x := noiseStep x
    (bytes.push x.toUInt8, x)

/-- The contents of two areas of RAM, filled one after the other. -/
def RamFill.bytes (m n : Nat) : RamFill → Vector UInt8 m × Vector UInt8 n
  | .zeros => (Vector.replicate m 0, Vector.replicate n 0)
  | .noise seed =>
    let (first, x) := noiseBytes m seed
    (first, (noiseBytes n x).1)

end Handheld
