/-
Module: Handheld.Cartridge.Header
Purpose: The header that every cartridge image carries at 0x0100 to 0x014F, and why an image is
  refused.
Main exports: Header, Header.ofImage, Header.parse, Header.checksumOk, Header.ramSize, LoadError, headerEnd
-/
import Handheld.Text.Hex

namespace Handheld.Cartridge

/-- The first address behind the header; a shorter image has none. -/
def headerEnd : Nat := 0x150

/-- Why an image cannot be used. -/
inductive LoadError where
  /-- The image of `size` bytes is too short to hold a header. -/
  | tooShort (size : Nat)
  /-- The header names a kind of cartridge that is not known. -/
  | unsupported (kind : UInt8)
deriving DecidableEq, Repr

/-- The report of a refused image. -/
def LoadError.message : LoadError → String
  | .tooShort size =>
    "ROM image should be at least " ++ toString headerEnd ++ " bytes to hold a header, was "
      ++ toString size ++ " bytes"
  | .unsupported kind => "unsupported cartridge type byte in header: " ++ Text.hexByte kind

/-- The fields of the header. -/
structure Header where
  title : String
  /-- The byte that names the kind of cartridge. -/
  kind : UInt8
  romSizeCode : UInt8
  ramSizeCode : UInt8
  storedChecksum : UInt8
  /-- The checksum that the stored one should equal. -/
  computedChecksum : UInt8
deriving DecidableEq, Repr, Inhabited

/-- Whether a title byte can be shown: the printable ASCII characters and the space. -/
def isTitleByte (b : UInt8) : Bool :=
  0x20 ≤ b && b ≤ 0x7E

/-- The text without the spaces at its end. -/
def dropTrailingSpaces (cs : List Char) : List Char :=
  (cs.reverse.dropWhile (· == ' ')).reverse

/-- The title in a field of bytes: it ends at the first zero byte, bytes that cannot be shown are
    left out, and padding is dropped. -/
def titleOf (field : List UInt8) : String :=
  let shown := (field.takeWhile (· != 0)).filter isTitleByte
  String.ofList (dropTrailingSpaces (shown.map fun b => Char.ofNat b.toNat))

/-- The checksum of some bytes: each takes itself and one more from it. -/
def checksum (bytes : List UInt8) : UInt8 :=
  bytes.foldl (fun sum b => sum - b - 1) 0

/-- The `count` bytes of an image from `start` on; bytes behind the end count as zero. -/
def bytesFrom (rom : Array UInt8) (start count : Nat) : List UInt8 :=
  (List.range count).map fun i => rom.getD (start + i) 0

namespace Header

/-- The header of an image that has one. -/
def ofImage (rom : Array UInt8) : Header where
  title := titleOf (bytesFrom rom 0x134 16)
  kind := rom.getD 0x147 0
  romSizeCode := rom.getD 0x148 0
  ramSizeCode := rom.getD 0x149 0
  storedChecksum := rom.getD 0x14D 0
  computedChecksum := checksum (bytesFrom rom 0x134 25)

/-- Read the header of an image. -/
def parse (rom : Array UInt8) : Except LoadError Header :=
  if rom.size < headerEnd then .error (.tooShort rom.size) else .ok (ofImage rom)

/-- Whether the stored checksum is the computed one. -/
def checksumOk (h : Header) : Bool :=
  h.storedChecksum == h.computedChecksum

/-- The size in bytes of the RAM that the header declares; an unknown code declares none. -/
def ramSize (h : Header) : Nat :=
  match h.ramSizeCode.toNat with
  | 1 => 0x800
  | 2 => 0x2000
  | 3 => 0x8000
  | 4 => 0x20000
  | 5 => 0x10000
  | _ => 0

/-- An image of sufficient size has a header, and no other image has one. -/
theorem parse_eq_ok_iff {rom : Array UInt8} {h : Header} :
    parse rom = .ok h ↔ headerEnd ≤ rom.size ∧ ofImage rom = h := by
  unfold parse
  by_cases hshort : rom.size < headerEnd
  · simp [hshort, Nat.not_le.mpr hshort]
  · simp [hshort, Nat.not_lt.mp hshort]

end Header

end Handheld.Cartridge
