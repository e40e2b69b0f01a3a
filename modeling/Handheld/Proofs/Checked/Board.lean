/-
Module: Handheld.Proofs.Checked.Board
Purpose: The board with every address checked against the memory that it leads to. Reading and
  writing are within bounds on every board and at every address; letting the clock run is, except
  where a line is drawn with a sprite astray. A checked board is a bus like the other.
Main exports: Target.ofAddress?_eq, Board.read?_eq, Board.write?_eq, Board.advance?,
  NotedBoard.noting?_eq, Dialogue.run_checked
-/
import Handheld.Board.Noted
import Handheld.Proofs.Board.Map
import Handheld.Proofs.Checked.Cartridge
import Handheld.Proofs.Checked.Raster
import Handheld.Proofs.Console.Display
import Handheld.Proofs.Processor.Dialogue
import Mathlib.Data.List.FinRange

namespace Handheld

/-! ### The memory map -/

namespace Target

/-- The cell at an address, of a memory that begins at the address `start`. -/
def cell? {size : Nat} (target : Fin size → Target) (start address : Nat) : Option Target := do
  let i ← Checked.sub address start
  let i ← Checked.place size i
  some (target i)

/-- What an address names. Each memory is entered at the distance from where it begins; of the
    addresses of video memory the lower bits are taken. -/
def ofAddress? (address : UInt16) : Option Target :=
  let a := address.toNat
  if a < 0x8000 then some .rom
  else if a < 0xA000 then cell? .vram 0 (a % 0x2000)
  else if a < 0xC000 then some .cartridgeRam
  else if a < 0xE000 then cell? .wram 0xC000 a
  else if a < 0xFE00 then cell? .wram 0xE000 a
  else if a < 0xFEA0 then cell? .oam 0xFE00 a
  else if 0xFF10 ≤ a ∧ a < 0xFF40 then cell? .sound 0xFF10 a
  else if 0xFF80 ≤ a ∧ a < 0xFFFF then cell? .hram 0xFF80 a
  else some (ofAddress address)

variable {address : UInt16}

theorem cell?_eq {size start place : Nat} {target : Fin size → Target} {i : Fin size}
    (h : place = start + i.val) : cell? target start place = some (target i) := by
  have hdistance : Checked.sub place start = some i.val := by
    rw [h, Checked.sub_eq (Nat.le_add_right start i.val), Nat.add_sub_cancel_left]
  have hplace : Checked.place size i.val = some i := Checked.place_eq i.isLt
  simp only [cell?, hdistance, hplace, Option.bind_eq_bind, Option.bind_some]

/-- Work RAM, entered at the nearer of its two places. -/
theorem cell?_wram {start : Nat} (low : 0xC000 ≤ address.toNat) (high : address.toNat < 0xFE00)
    (hstart : address.toNat = start + address.toNat % wramSize) :
    cell? .wram start address.toNat = some (ofAddress address) := by
  obtain ⟨i, hi⟩ := exists_wram low high
  obtain ⟨-, -, hplace⟩ := ofAddress_eq_wram_iff.mp hi
  rw [hplace] at hstart
  rw [hi]
  exact cell?_eq hstart

/-- Every address leads to a cell that is there. -/
theorem ofAddress?_eq (address : UInt16) : ofAddress? address = some (ofAddress address) := by
  unfold ofAddress?
  dsimp only
  generalize htarget : ofAddress address = target
  have hstands := standsAt_of_eq htarget
  split
  · next hrom => rw [← htarget, ofAddress_eq_rom_iff.mpr hrom]
  split
  · next hrom hvram =>
    obtain ⟨i, hi⟩ := exists_vram (Nat.not_lt.mp hrom) hvram
    have hplace := ofAddress_eq_vram_iff.mp hi
    have hlt : i.val < 0x2000 := i.isLt
    rw [← htarget, hi]
    exact cell?_eq (by omega)
  split
  · next hram =>
    rw [← htarget, ofAddress_eq_cartridgeRam_iff.mpr ⟨by omega, hram⟩]
  split
  · rw [← htarget]
    exact cell?_wram (by omega) (by omega) (by unfold wramSize; omega)
  split
  · rw [← htarget]
    exact cell?_wram (by omega) (by omega) (by unfold wramSize; omega)
  split
  · next hlow hhigh =>
    obtain ⟨i, hi⟩ := exists_oam (Nat.not_lt.mp hlow) hhigh
    rw [← htarget, hi]
    exact cell?_eq (ofAddress_eq_oam_iff.mp hi)
  split
  · next hsound =>
    cases hstands with
    | sound i _ h => exact cell?_eq h
    | _ => omega
  split
  · next hhram =>
    cases hstands with
    | hram i _ h => exact cell?_eq h
    | _ => omega
  · rfl

end Target

namespace Board

/-! ### Reading and writing -/

/-- Read what an address names. -/
def readTarget? (b : Board) (address : UInt16) : Target → Option UInt8
  | .rom => b.cartridge.readRom? address
  | .cartridgeRam => b.cartridge.readRam? address
  | target => some (b.readTarget address target)

/-- Read a byte. -/
def read? (b : Board) (address : UInt16) : Option UInt8 := do
  let target ← Target.ofAddress? address
  b.readTarget? address target

/-- Copy bytes from `source` on to the places of the sprite table that have the given numbers. -/
def copyToOam? (b : Board) (source : UInt16) : List Nat → Option Board
  | [] => some b
  | i :: rest => do
    let value ← b.read? (source + UInt16.ofNat i)
    let place ← Checked.place Picture.oamSize i
    copyToOam? { b with picture := b.picture.transferOam place value } source rest

/-- Start a block transfer. -/
def startTransfer? (b : Board) (page : UInt8) : Option Board :=
  copyToOam? { b with transfer := page } (joinBytes page 0) (List.range Picture.oamSize)

/-- Write what an address names. -/
def writeTarget? (b : Board) (address : UInt16) (value : UInt8) :
    Target → Option (Board × List Note)
  | .rom => do
    let (cartridge, notes) ← b.cartridge.writeRom? address value
    some ({ b with cartridge }, notes)
  | .cartridgeRam => do
    let cartridge ← b.cartridge.writeRam? address value
    some ({ b with cartridge }, [])
  | .transfer => do
    let b ← b.startTransfer? value
    some (b, [])
  | target => some (b.writeTarget address value target)

/-- Write a byte. -/
def write? (b : Board) (address : UInt16) (value : UInt8) : Option (Board × List Note) := do
  let target ← Target.ofAddress? address
  b.writeTarget? address value target

variable {b : Board}

/-- Whatever is in the slot and whatever state the board is in, every address can be read. -/
theorem read?_eq (b : Board) (address : UInt16) : b.read? address = some (b.read address) := by
  unfold read? read
  rw [Target.ofAddress?_eq, Option.bind_eq_bind, Option.bind_some]
  cases htarget : Target.ofAddress address with
  | rom => exact b.cartridge.readRom?_eq address
  | cartridgeRam =>
      exact b.cartridge.readRam?_eq (Target.ofAddress_eq_cartridgeRam_iff.mp htarget).1
  | _ => rfl

theorem copyToOam?_eq (b : Board) (source : UInt16) (places : List (Fin Picture.oamSize)) :
    b.copyToOam? source (places.map Fin.val) = some (b.copyToOam source places) := by
  induction places generalizing b with
  | nil => rfl
  | cons i rest ih =>
      rw [List.map_cons]
      unfold copyToOam? copyToOam
      rw [read?_eq, Checked.place_eq i.isLt, Option.bind_eq_bind, Option.bind_some,
        Option.bind_eq_bind, Option.bind_some]
      exact ih _

theorem startTransfer?_eq (b : Board) (page : UInt8) :
    b.startTransfer? page = some (b.startTransfer page) := by
  have hplaces : List.range Picture.oamSize = (List.finRange Picture.oamSize).map Fin.val :=
    List.map_coe_finRange_eq_range.symm
  unfold startTransfer? startTransfer
  rw [hplaces]
  exact copyToOam?_eq _ _ _

/-- And every address can be written. -/
theorem write?_eq (b : Board) (address : UInt16) (value : UInt8) :
    b.write? address value = some (b.write address value) := by
  unfold write? write
  rw [Target.ofAddress?_eq, Option.bind_eq_bind, Option.bind_some]
  cases htarget : Target.ofAddress address with
  | rom =>
      unfold writeTarget? writeTarget
      dsimp only
      rw [Cartridge.writeRom?_eq]
      rfl
  | cartridgeRam =>
      have harea := (Target.ofAddress_eq_cartridgeRam_iff.mp htarget).1
      unfold writeTarget? writeTarget
      dsimp only
      rw [Cartridge.writeRam?_eq b.cartridge value harea]
      rfl
  | transfer =>
      unfold writeTarget? writeTarget
      dsimp only
      rw [startTransfer?_eq]
      rfl
  | _ => rfl

/-! ### The clock -/

/-- Let clock cycles pass in the picture unit alone. -/
def advancePicture? (b : Board) (cycles : Nat) : Option (Board × List Note) := do
  let (picture, signals) ← b.picture.advance? cycles
  some (followAll { b with picture } signals)

/-- Let clock cycles pass. The divider of the timer wraps around. -/
def advance? (b : Board) (cycles : Nat) : Option (Board × List Note) :=
  (b.advanceTimer cycles).advancePicture? cycles

theorem advance?_of_straight {cycles : Nat} (h : b.picture.Reachable) (hshort : cycles < 2 ^ 16)
    (hstraight : ∀ k < cycles, ¬ (b.picture.advance k).1.DrawsAstray) :
    b.advance? cycles = some (b.advance cycles) := by
  have hsame : (b.advanceTimer cycles).picture = b.picture := by rw [advanceTimer_eq]
  unfold advance? advance advancePicture? advancePicture
  rw [hsame, Picture.advance?_of_straight h hshort hstraight]
  rfl

theorem advance?_of_astray {cycles k : Nat} (h : b.picture.Reachable) (hk : k < cycles)
    (hastray : (b.picture.advance k).1.DrawsAstray) : b.advance? cycles = none := by
  have hsame : (b.advanceTimer cycles).picture = b.picture := by rw [advanceTimer_eq]
  unfold advance? advancePicture?
  rw [hsame, Picture.advance?_of_astray h hk hastray]
  rfl

end Board

/-! ### The bus -/

/-- Change the board if that exceeds no bound, and keep the notes made on the way. -/
def NotedBoard.noting? (f : Board → Option (Board × List Note)) (b : NotedBoard) :
    Option NotedBoard := do
  let (board, notes) ← f b.board
  some ⟨board, notes.reverseAux b.latestFirst⟩

theorem NotedBoard.noting?_eq {f : Board → Option (Board × List Note)}
    {g : Board → Board × List Note} {b : NotedBoard} (h : f b.board = some (g b.board)) :
    b.noting? f = some (b.noting g) := by
  simp only [noting?, h, Option.bind_eq_bind, Option.bind_some]
  rfl

/-- A board whose accesses are checked. Once an access has exceeded a bound there is none any more. -/
abbrev CheckedBoard : Type := Option NotedBoard

namespace CheckedBoard

/-- Read a byte. Without a board there is nothing that could be read. -/
def read (b : CheckedBoard) (address : UInt16) : UInt8 × CheckedBoard :=
  match b with
  | none => (Cartridge.openByte, none)
  | some b =>
    match b.board.read? address with
    | none => (Cartridge.openByte, none)
    | some value => (value, some b)

instance : Bus CheckedBoard where
  read := read
  write b address value := b.bind fun b => b.noting? fun board => board.write? address value
  takeWake b :=
    match b with
    | none => (false, none)
    | some b => ((Bus.takeWake b).1, some (Bus.takeWake b).2)
  hear b note := b.map fun b => Bus.hear b note

theorem read_some (b : NotedBoard) (address : UInt16) :
    Bus.read (some b : CheckedBoard) address =
      ((Bus.read b address).1, some (Bus.read b address).2) := by
  have hread := b.board.read?_eq address
  dsimp only [Bus.read, read]
  rw [hread]

theorem write_some (b : NotedBoard) (address : UInt16) (value : UInt8) :
    Bus.write (some b : CheckedBoard) address value = some (Bus.write b address value) :=
  NotedBoard.noting?_eq (f := fun board => board.write? address value)
    (g := fun board => board.write address value) (b.board.write?_eq address value)

end CheckedBoard

/-- No dialogue exceeds a bound of the board, and the checks change nothing. -/
theorem Dialogue.run_checked {α : Type} (d : Dialogue α) (b : NotedBoard) :
    d.run (some b : CheckedBoard) = ((d.run b).1, some (d.run b).2) := by
  induction d generalizing b with
  | done result => rfl
  | read address next ih =>
      unfold Dialogue.run
      rw [CheckedBoard.read_some]
      exact ih _ _
  | write address value next ih =>
      unfold Dialogue.run
      rw [CheckedBoard.write_some]
      exact ih _
  | takeWake next ih => exact ih _ _
  | hear note next ih => exact ih _

end Handheld
