/-
Module: Handheld.Proofs.Console.Display
Purpose: What a console step does to the raster before the clock moves it. Only a write to LCDC
  switches the display, and no step writes LCDC twice.
Main exports: lcdcAddress, Board.raster_write, NotedBoard.raster_run, Core.raster_step
-/
import Handheld.Console
import Handheld.Proofs.Board.Ram
import Handheld.Proofs.Board.Written

namespace Handheld

/-- The address of the control register LCDC. -/
def lcdcAddress : UInt16 := 0xFF40

/-! ### The memory map -/

theorem Picture.Register.ofAddress?_eq_lcdc {address : UInt16}
    (h : Picture.Register.ofAddress? address = some .lcdc) : address = lcdcAddress := by
  unfold Picture.Register.ofAddress? at h
  split at h
  · next hnat =>
    have hlcdc : lcdcAddress.toNat = 0xFF40 := by decide
    exact UInt16.toNat_inj.mp (hnat.trans hlcdc.symm)
  all_goals cases h

theorem Target.ofHighPage_eq_lcdc {address : UInt16} {i : Nat}
    (h : ofHighPage address i = .picture .lcdc) : address = lcdcAddress := by
  unfold ofHighPage at h
  repeat' split at h
  case h_3 hpicture =>
    cases h
    exact Picture.Register.ofAddress?_eq_lcdc hpicture
  all_goals cases h

/-- LCDC is at one address. -/
theorem Target.ofAddress_eq_lcdc {address : UInt16} (h : ofAddress address = .picture .lcdc) :
    address = lcdcAddress := by
  unfold ofAddress at h
  dsimp only at h
  repeat' split at h
  all_goals first
    | exact ofHighPage_eq_lcdc h
    | cases h

/-! ### The board -/

namespace Board

theorem picture_advance (b : Board) (cycles : Nat) :
    (b.advance cycles).1.picture = (b.picture.advance cycles).1 := by
  rw [advance_eq]

/-- What the clock and the registers of the picture unit leave alone: the cartridge, and which lines
    are enabled. -/
def steady (b : Board) : Cartridge × UInt8 :=
  (b.cartridge, b.interrupts.enable)

theorem steady_advance (b : Board) (cycles : Nat) : (b.advance cycles).1.steady = b.steady := by
  rw [advance_eq]
  rfl

theorem write_lcdc (b : Board) (value : UInt8) :
    b.write lcdcAddress value = b.writePicture .lcdc value := by
  have htarget : Target.ofAddress lcdcAddress = .picture .lcdc := by decide +kernel
  unfold write
  rw [htarget]
  rfl

theorem picture_writePicture (b : Board) (register : Picture.Register) (value : UInt8) :
    (b.writePicture register value).1.picture = (b.picture.write register value).1 :=
  congrArg Board.picture (followAll_eq _ _)

theorem steady_writePicture (b : Board) (register : Picture.Register) (value : UInt8) :
    (b.writePicture register value).1.steady = b.steady := by
  unfold writePicture
  dsimp only
  rw [followAll_eq]
  rfl

/-- What a write to each target does to the raster. -/
theorem raster_writeTarget (b : Board) (address : UInt16) (value : UInt8) {target : Target}
    (h : target ≠ .picture .lcdc) :
    (b.writeTarget address value target).1.picture.raster = b.picture.raster := by
  obtain ⟨oam, hwritten⟩ := b.exists_written address value target
  rw [hwritten]
  cases target with
  | vram i => exact Picture.raster_writeVram b.picture i value
  | oam i => exact Picture.raster_writeOam b.picture i value
  | picture register => exact Picture.raster_write (fun heq => h (heq ▸ rfl)) _ _
  | _ => rfl

/-- A write switches the display, or leaves the raster alone. Only a write to LCDC can switch it. -/
theorem raster_write (b : Board) (address : UInt16) (value : UInt8) :
    (b.write address value).1.picture.raster = b.picture.raster ∨
      address = lcdcAddress ∧
        (b.write address value).1.picture.raster = b.picture.raster.switch !b.picture.lcdOn := by
  by_cases htarget : Target.ofAddress address = .picture .lcdc
  · obtain rfl := Target.ofAddress_eq_lcdc htarget
    rw [write_lcdc, picture_writePicture, Picture.write, Picture.raster_writeLcdc]
    by_cases hsame : b.picture.lcdOn = (value &&& 0x80 != 0)
    · rw [if_pos hsame]
      exact .inl rfl
    · rw [if_neg hsame]
      refine .inr ⟨rfl, ?_⟩
      rw [Bool.eq_not.mpr (Ne.symm hsame)]
  · exact .inl (raster_writeTarget b address value htarget)

end Board

/-! ### The processor on the board -/

namespace NotedBoard

variable {α : Type}

theorem board_write (b : NotedBoard) (address : UInt16) (value : UInt8) :
    (Bus.write b address value).board = (b.board.write address value).1 := rfl

theorem board_advance (b : NotedBoard) (cycles : Nat) :
    (b.advance cycles).board = (b.board.advance cycles).1 := rfl

/-- A dialogue that never writes LCDC leaves the raster alone. -/
theorem raster_run_of_still {d : Dialogue α} (h : d.WritesAtMost lcdcAddress 0) (b : NotedBoard) :
    (d.run b).2.board.picture.raster = b.board.picture.raster := by
  induction d generalizing b with
  | done result => rfl
  | read address next ih => exact ih _ (h _) _
  | write address value next ih =>
      unfold Dialogue.WritesAtMost at h
      split at h
      · obtain ⟨m, hm, -⟩ := h
        cases hm
      · next hne =>
        have hnext := ih h (Bus.write b address value)
        rcases b.board.raster_write address value with hsame | ⟨hlcdc, -⟩
        · exact hnext.trans hsame
        · exact absurd hlcdc hne
  | takeWake next ih => exact ih _ (h _) _
  | hear note next ih => exact ih h _

/-- A dialogue that writes LCDC once at most leaves the raster alone, or switches the display. -/
theorem raster_run {d : Dialogue α} (h : d.WritesAtMost lcdcAddress 1) (b : NotedBoard) :
    (d.run b).2.board.picture.raster = b.board.picture.raster ∨
      (d.run b).2.board.picture.raster =
        b.board.picture.raster.switch !b.board.picture.lcdOn := by
  induction d generalizing b with
  | done result => exact .inl rfl
  | read address next ih => exact ih _ (h _) b
  | write address value next ih =>
      unfold Dialogue.WritesAtMost at h
      split at h
      · -- this is the one write, and from here on the raster is left alone
        obtain ⟨m, hm, hrest⟩ := h
        obtain rfl : m = 0 := by omega
        have hnext := raster_run_of_still hrest (Bus.write b address value)
        rcases b.board.raster_write address value with hsame | ⟨-, hswitch⟩
        · exact .inl (hnext.trans hsame)
        · exact .inr (hnext.trans hswitch)
      · next hne =>
        have hsame : (Bus.write b address value).board.picture.raster = b.board.picture.raster := by
          rcases b.board.raster_write address value with hsame | ⟨hlcdc, -⟩
          · exact hsame
          · exact absurd hlcdc hne
        have hlit : (Bus.write b address value).board.picture.lcdOn = b.board.picture.lcdOn :=
          congrArg Picture.Raster.lit hsame
        have hnext := ih h (Bus.write b address value)
        rw [hsame, hlit] at hnext
        exact hnext
  | takeWake next ih => exact ih _ (h _) _
  | hear note next ih => exact ih h _

end NotedBoard

/-- A step of the processor leaves the raster alone, or switches the display once. -/
theorem Core.raster_step (m : Core NotedBoard) :
    m.step.2.bus.board.picture.raster = m.bus.board.picture.raster ∨
      m.step.2.bus.board.picture.raster =
        m.bus.board.picture.raster.switch !m.bus.board.picture.lcdOn := by
  have hne : lcdcAddress ≠ requestAddress := by decide
  obtain ⟨d, hd, hrun⟩ := speaks_step m.cpu hne
  have hstep : m.step = d.runCore m.bus := hrun m.bus
  rw [hstep]
  exact NotedBoard.raster_run hd m.bus

/-! ### A processor without interrupts -/

namespace Core

variable {m : Core NotedBoard}

theorem pendingLines_eq (m : Core NotedBoard) : m.pendingLines =
    (LineSet.ofByte (m.bus.board.read enableAddress &&& m.bus.board.read requestAddress), m) := rfl

theorem pendingLines_of_disabled (h : m.bus.board.interrupts.enable = 0) :
    m.pendingLines = (⟨0⟩, m) := by
  rw [pendingLines_eq, Board.read_enable, h]
  simp [LineSet.ofByte]

theorem poll_of_disabled (h : m.bus.board.interrupts.enable = 0) : m.poll = (none, m) := by
  unfold poll
  rw [pendingLines_of_disabled h]
  rfl

/-- HALT halts if no line is enabled. -/
theorem halt_of_disabled (h : m.bus.board.interrupts.enable = 0) :
    m.halt = { m with cpu.halted := true } := by
  unfold halt
  rw [pendingLines_of_disabled h]
  exact ite_self _

theorem fetchByte_noted (hbug : m.cpu.haltBug = false) :
    m.fetchByte = (m.bus.board.read m.cpu.regs.pc,
      { m with cpu.regs.pc := m.cpu.regs.pc + 1 }) := by
  simp [fetchByte, read, Bus.read, mapRegs, hbug]

/-- A step for an opcode that stands alone. -/
theorem step_complete {instr : Instr} (hfault : m.cpu.fault = none)
    (hstopped : m.cpu.stopped = false) (hhalted : m.cpu.halted = false)
    (hbug : m.cpu.haltBug = false) (henable : m.bus.board.interrupts.enable = 0)
    (hdecode : decode (m.bus.board.read m.cpu.regs.pc) = .complete instr) :
    m.step = finish (.ok instr) { m with cpu.regs.pc := m.cpu.regs.pc + 1 } := by
  apply step_executing hfault hstopped hhalted (poll_of_disabled henable)
  rw [fetch_eq, fetchByte_noted hbug, complete, hdecode]

/-- A step for an opcode without an instruction. -/
theorem step_illegal {opcode : UInt8} (hfault : m.cpu.fault = none)
    (hstopped : m.cpu.stopped = false) (hhalted : m.cpu.halted = false)
    (hbug : m.cpu.haltBug = false) (henable : m.bus.board.interrupts.enable = 0)
    (hopcode : m.bus.board.read m.cpu.regs.pc = opcode) (hdecode : decode opcode = .illegal) :
    m.step = (.error ⟨opcode, m.cpu.regs.pc⟩,
      lock { m with cpu.regs.pc := m.cpu.regs.pc + 1 } ⟨opcode, m.cpu.regs.pc⟩) := by
  rw [step_running hfault hstopped (poll_of_disabled henable) hhalted, fetch_eq,
    fetchByte_noted hbug, hopcode, complete, hdecode]
  dsimp only
  rw [UInt16.add_sub_cancel]
  rfl

/-- A step for an opcode that is followed by a byte. -/
theorem step_withByte {instr : UInt8 → Instr} (hfault : m.cpu.fault = none)
    (hstopped : m.cpu.stopped = false) (hhalted : m.cpu.halted = false)
    (hbug : m.cpu.haltBug = false) (henable : m.bus.board.interrupts.enable = 0)
    (hdecode : decode (m.bus.board.read m.cpu.regs.pc) = .withByte instr) :
    m.step = finish (.ok (instr (m.bus.board.read (m.cpu.regs.pc + 1))))
      { m with cpu.regs.pc := m.cpu.regs.pc + 1 + 1 } := by
  apply step_executing hfault hstopped hhalted (poll_of_disabled henable)
  rw [fetch_eq, fetchByte_noted hbug, complete, hdecode]
  dsimp only
  rw [fetchByte_noted (m := { m with cpu.regs.pc := m.cpu.regs.pc + 1 }) hbug]

end Core

end Handheld
