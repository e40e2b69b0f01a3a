/-
Module: Handheld.Proofs.Picture.DisplayOff
Purpose: The unit while its display is off. Registers and memories can be written, and cycles pass,
  any number at once; but nothing is drawn and nothing is requested, and the raster rests at the top
  of the frame with both memories open. Only the cycles are counted, so that a frame is complete
  whenever another frame's worth of them is over.
Main exports: Turn, takeTurn, takeTurns, completesIn, Resting, Resting.takeTurns, Quiet,
  displayOff_quiet
-/
import Handheld.Proofs.Board.Clock
import Handheld.Proofs.Board.Store
import Handheld.Proofs.Checked.Raster

namespace Handheld.Picture

/-! ### Turns -/

/-- What can happen to the unit: cycles pass, any number of them at once, or a beat. -/
inductive Turn where
  | cycles (count : Nat)
  | touch (beat : Beat)
deriving DecidableEq

/-- The cycles that a turn takes. -/
def Turn.length : Turn → Nat
  | .cycles count => count
  | .touch beat => if beat = .dot then 1 else 0

/-- A turn that leaves a display off that is off. -/
def Turn.keepsOff : Turn → Bool
  | .touch (.write .lcdc value) => value &&& 0x80 == 0
  | _ => true

/-- The cycles that turns take together. -/
def lengthOf (turns : List Turn) : Nat :=
  (turns.map Turn.length).sum

/-- One turn. -/
def takeTurn (u : Picture) : Turn → Picture × List Signal
  | .cycles count => u.advance count
  | .touch beat => u.play beat

/-- The unit and the interrupt controller after one turn after the other. -/
def takeTurns (u : Picture) (c : InterruptController) :
    List Turn → Picture × InterruptController
  | [] => (u, c)
  | turn :: rest => (u.takeTurn turn).1.takeTurns (c.raise (linesOf (u.takeTurn turn).2)) rest

/-- Whether a turn completes a frame: it sets the mark, and would do so if the mark had been taken
    just before. -/
def completesIn (u : Picture) (turn : Turn) : Bool :=
  (u.clearFrameReady.takeTurn turn).1.frameReady

variable {u start : Picture} {elapsed : Nat}

/-! ### Single turns -/

/-- With the display off nothing is signalled, unless it is switched on. -/
theorem signals_takeTurn (hoff : u.lcdOn = false) {turn : Turn} (hkeep : turn.keepsOff = true) :
    (u.takeTurn turn).2 = [] := by
  have hquiet (v : Picture) (hdark : v.lcdOn = false) : v.updateStat.2 = [] := by
    simp [updateStat, hdark]
  cases turn with
  | cycles count => exact congrArg Prod.snd (advance_of_off hoff count)
  | touch beat =>
      cases beat with
      | dot => exact congrArg Prod.snd (advance_of_off hoff 1)
      | write register value =>
          cases register with
          | lcdc =>
              have hvalue : ({ u with lcdc := value } : Picture).lcdOn = false := by
                simpa [lcdOn, control] using beq_iff_eq.mp hkeep
              have hsame : u.lcdOn = ({ u with lcdc := value } : Picture).lcdOn :=
                hoff.trans hvalue.symm
              exact congrArg Prod.snd (if_pos hsame)
          | stat => exact hquiet { u with statSelect := value &&& 0x78 } hoff
          | lyc => exact hquiet { u with lyc := value } hoff
          | _ => rfl
      | _ => rfl

/-- Between two cycles the raster of a display that is off and stays off does not move. -/
theorem raster_play_of_off {beat : Beat} (hoff : u.lcdOn = false)
    (hkeep : (Turn.touch beat).keepsOff = true) (hdot : beat ≠ .dot) :
    (u.play beat).1.raster = { u.raster with frameReady := (u.play beat).1.frameReady } := by
  have hraster (v : Picture) (h : v.raster = u.raster) :
      v.raster = { u.raster with frameReady := v.frameReady } := by
    have hready : v.frameReady = u.frameReady := congrArg Raster.frameReady h
    rw [hready]
    exact h
  cases beat with
  | dot => contradiction
  | write register value =>
      apply hraster
      by_cases hlcdc : register = .lcdc
      · subst hlcdc
        have hvalue : value &&& 0x80 = 0 := beq_iff_eq.mp hkeep
        have hsame : u.lcdOn = (value &&& 0x80 != 0) := by rw [hoff, hvalue]; rfl
        exact (u.raster_writeLcdc value).trans (if_pos hsame)
      · exact raster_write hlcdc u value
  | writeVram i value => exact hraster _ (raster_writeVram u i value)
  | writeOam i value => exact hraster _ (raster_writeOam u i value)
  | transferOam i value => exact hraster _ (raster_transferOam u i value)
  | forget => rfl

/-! ### The invariant -/

/-- The unit rests: its display has been off for `elapsed` cycles, and its frame is still the one
    that was there at the start. -/
structure Resting (start : Picture) (elapsed : Nat) (u : Picture) : Prop where
  reachable : Reachable u
  off : u.lcdOn = false
  line : u.ly = 0
  count : u.offCycles = elapsed % cyclesPerFrame
  frame : u.frame = start.frame

/-- Switching the display off brings the unit to rest, and no interrupt comes of it. -/
theorem resting_of_switch (h : Reachable u) (hon : u.lcdOn = true) {value : UInt8}
    (hvalue : value &&& 0x80 = 0) :
    Resting u 0 (u.write .lcdc value).1 ∧ linesOf (u.write .lcdc value).2 = ⟨0⟩ := by
  have hdark : ({ u with lcdc := value } : Picture).lcdOn = false := by
    simp [lcdOn, control, hvalue]
  have hswitch : ¬ u.lcdOn = ({ u with lcdc := value } : Picture).lcdOn := by
    rw [hon, hdark]
    exact Bool.noConfusion
  have hwrite : u.write .lcdc value = ({ u with lcdc := value } : Picture).setLcd false := by
    rw [← hdark]
    exact if_neg hswitch
  have hreachable : Reachable (u.write .lcdc value).1 := h.play (.write .lcdc value)
  rw [hwrite] at hreachable ⊢
  exact ⟨⟨hreachable, hdark, rfl, rfl, rfl⟩, LineSet.union_empty ⟨0⟩⟩

theorem Resting.advance (h : Resting start elapsed u) (cycles : Nat) :
    Resting start (elapsed + cycles) (u.advance cycles).1 := by
  have hreachable := h.reachable.advance cycles
  have hcount : (u.offCycles + cycles) % cyclesPerFrame = (elapsed + cycles) % cyclesPerFrame := by
    rw [h.count, Nat.mod_add_mod]
  rw [advance_of_off h.off] at hreachable ⊢
  exact ⟨hreachable, h.off, h.line, hcount, h.frame⟩

/-- A turn that does not switch the display on leaves the unit at rest. -/
theorem Resting.takeTurn (h : Resting start elapsed u) {turn : Turn}
    (hkeep : turn.keepsOff = true) :
    Resting start (elapsed + turn.length) (u.takeTurn turn).1 := by
  cases turn with
  | cycles count => exact h.advance count
  | touch beat =>
      by_cases hdot : beat = .dot
      · subst hdot
        exact h.advance 1
      · have hlength : (Turn.touch beat).length = 0 := if_neg hdot
        have hraster := raster_play_of_off h.off hkeep hdot
        have hoff : (u.play beat).1.lcdOn = u.lcdOn := congrArg Raster.lit hraster
        have hline : (u.play beat).1.ly = u.ly := congrArg Raster.ly hraster
        have hcount : (u.play beat).1.offCycles = u.offCycles := congrArg Raster.offCycles hraster
        rw [hlength]
        exact ⟨h.reachable.play beat, hoff.trans h.off, hline.trans h.line, hcount.trans h.count,
          (frame_play hdot u).trans h.frame⟩

/-- So do turns one after the other, and the interrupt controller does not notice them. -/
theorem Resting.takeTurns (h : Resting start elapsed u) (c : InterruptController)
    {turns : List Turn} (hkeep : ∀ turn ∈ turns, turn.keepsOff = true) :
    Resting start (elapsed + lengthOf turns) (u.takeTurns c turns).1 ∧
      (u.takeTurns c turns).2 = c := by
  induction turns generalizing u elapsed with
  | nil => exact ⟨h, rfl⟩
  | cons turn rest ih =>
      obtain ⟨hfirst, hrest⟩ := List.forall_mem_cons.mp hkeep
      have hlength : elapsed + lengthOf (turn :: rest) =
          elapsed + turn.length + lengthOf rest := by
        simp [lengthOf, Nat.add_assoc]
      have hsilent : c.raise (linesOf (u.takeTurn turn).2) = c := by
        rw [signals_takeTurn h.off hfirst]
        exact InterruptController.raise_empty c
      have hall : u.takeTurns c (turn :: rest) = (u.takeTurn turn).1.takeTurns c rest :=
        congrArg (fun c => (u.takeTurn turn).1.takeTurns c rest) hsilent
      rw [hlength, hall]
      exact ih (h.takeTurn hfirst) hrest

/-! ### What can be seen -/

/-- What can be seen of a unit that rests. -/
structure Quiet (start u : Picture) : Prop where
  frame : u.frame = start.frame
  line : u.read .ly = 0
  mode : u.read .stat &&& 0x03 = 0
  /-- What is read is what is stored, and what is written is stored. -/
  vram : ∀ i value, u.readVram i = u.vram.get i ∧
    (u.writeVram i value).vram = u.vram.set i value i.isLt
  oam : ∀ i value, u.readOam i = u.oam.get i ∧
    (u.writeOam i value).oam = u.oam.set i value i.isLt
  /-- The count of the cycles does not leave its 32 bits. -/
  counts : ∀ cycles < 2 ^ 31, u.advance? cycles = some (u.advance cycles)

theorem Resting.quiet (h : Resting start elapsed u) : Quiet start u := by
  have hmode : u.visibleMode = .hblank := if_neg (by simp [h.off])
  have hvram : u.vramOpen = true := by
    unfold vramOpen
    rw [hmode]
    rfl
  have hoam : u.oamOpen = true := by
    unfold oamOpen
    rw [hmode]
    rfl
  refine ⟨h.frame, h.line, ?mode, fun i value => ?vram, fun i value => ?oam, ?counts⟩
  case mode =>
    have hbits := statByte_and_three (selectsSources_of_reachable h.reachable)
    rw [hmode] at hbits
    exact hbits
  case vram =>
    unfold readVram writeVram
    rw [if_pos hvram, if_pos hvram]
    exact ⟨rfl, rfl⟩
  case oam =>
    unfold readOam writeOam
    rw [if_pos hoam, if_pos hoam]
    exact ⟨rfl, rfl⟩
  case counts =>
    intro cycles hcycles
    have hframe : cyclesPerFrame < 2 ^ 31 := by decide
    have hcount : u.offCycles < cyclesPerFrame := h.reachable.coherent.offCycles_lt
    have htotal : Checked.add 32 u.offCycles cycles = some (u.offCycles + cycles) :=
      Checked.add_eq (by omega)
    simp [advance?, Picture.advance, h.off, htotal]

/-! ### Frames -/

/-- A stretch of cycles reaches or passes a multiple of a period if the rest of the one before it
    and the stretch make up a period. -/
theorem exists_multiple_iff {period : Nat} (h : 0 < period) (elapsed length : Nat) :
    (∃ n, elapsed < n * period ∧ n * period ≤ elapsed + length) ↔
      period ≤ elapsed % period + length := by
  have hsplit : elapsed / period * period + elapsed % period = elapsed := Nat.div_add_mod' _ _
  constructor
  · rintro ⟨n, hlow, hhigh⟩
    have hnext : elapsed / period + 1 ≤ n := (Nat.div_lt_iff_lt_mul h).mpr hlow
    have hfirst : (elapsed / period + 1) * period ≤ n * period := Nat.mul_le_mul_right _ hnext
    rw [Nat.succ_mul] at hfirst
    omega
  · intro hfull
    have hlt : elapsed % period < period := Nat.mod_lt _ h
    refine ⟨elapsed / period + 1, ?_⟩
    rw [Nat.succ_mul]
    omega

/-- A turn completes a frame if with it the cycles that are counted make up a frame. -/
theorem Resting.completesIn_iff (h : Resting start elapsed u) (turn : Turn) :
    u.completesIn turn = true ↔ cyclesPerFrame ≤ elapsed % cyclesPerFrame + turn.length := by
  have hadvance (cycles : Nat) : (u.clearFrameReady.advance cycles).1.frameReady = true ↔
      cyclesPerFrame ≤ elapsed % cyclesPerFrame + cycles := by
    rw [advance_of_off (u := u.clearFrameReady) h.off, ← h.count]
    simp only [idle, clearFrameReady, Bool.false_or]
    exact decide_eq_true_iff
  cases turn with
  | cycles count => exact hadvance count
  | touch beat =>
      by_cases hdot : beat = .dot
      · subst hdot
        exact hadvance 1
      · have hlength : (Turn.touch beat).length = 0 := if_neg hdot
        have hnone : u.completesIn (.touch beat) = false := completes_of_ne_dot hdot
        have hlt : elapsed % cyclesPerFrame < cyclesPerFrame := Nat.mod_lt _ (by decide)
        rw [hlength, hnone]
        exact ⟨fun hfalse => absurd hfalse Bool.false_ne_true, fun hfull => by omega⟩

/-- The display is switched off, for every unit that can come about. Whatever is done from then on
    without switching it on, the interrupt controller is left alone and the unit is quiet; and a turn
    completes a frame exactly if the cycles since the switching reach or pass another multiple of a
    frame's in it. -/
theorem displayOff_quiet (h : Reachable u) (hon : u.lcdOn = true) {value : UInt8}
    (hvalue : value &&& 0x80 = 0) (c : InterruptController) {turns : List Turn}
    (hkeep : ∀ turn ∈ turns, turn.keepsOff = true) :
    let switched := u.write .lcdc value
    let after := switched.1.takeTurns (c.raise (linesOf switched.2)) turns
    after.2 = c ∧ Quiet u after.1 ∧
      ∀ turn : Turn, after.1.completesIn turn = true ↔
        ∃ n, lengthOf turns < n * cyclesPerFrame ∧
          n * cyclesPerFrame ≤ lengthOf turns + turn.length := by
  intro switched after
  obtain ⟨hresting, hsilent⟩ := resting_of_switch h hon hvalue
  have hcontroller : c.raise (linesOf switched.2) = c := by
    rw [hsilent]
    exact InterruptController.raise_empty c
  obtain ⟨hafter, hunmoved⟩ := hresting.takeTurns (c.raise (linesOf switched.2)) hkeep
  refine ⟨hunmoved.trans hcontroller, hafter.quiet, ?_⟩
  intro turn
  have hframe : 0 < cyclesPerFrame := by decide
  rw [exists_multiple_iff hframe, hafter.completesIn_iff turn, Nat.zero_add]

/-- Three hundred dots into the frame the display is switched off. Status sources are selected, and
    after 70000 cycles the line is compared with the one that is shown: 223 cycles later no frame is
    complete, and a cycle more completes one. -/
theorem displayOff_quiet_lineCompared :
    let u := (({} : Picture).advance 300).1
    let turns := [Turn.touch (.write .stat 0x78), .cycles 70000, .touch (.write .lyc 0)]
    let after := ((u.write .lcdc 0x11).1.takeTurns {} turns).1
    (Reachable u ∧ u.lcdOn = true ∧ ∀ turn ∈ turns, turn.keepsOff = true) ∧
      after.read .ly = 0 ∧ after.completesIn (.cycles 223) = false ∧
        after.completesIn (.cycles 224) = true := by
  intro u turns after
  have hreachable : Reachable u := Reachable.powerOn.advance 300
  have hon : u.lcdOn = true := (pace_advance coherent_powerOn 300).1
  have hvalue : (0x11 : UInt8) &&& 0x80 = 0 := by decide
  have hkeep : ∀ turn ∈ turns, turn.keepsOff = true := by decide
  obtain ⟨-, hquiet, hcompletes⟩ := displayOff_quiet hreachable hon hvalue {} hkeep
  refine ⟨⟨hreachable, hon, hkeep⟩, hquiet.line, ?_, ?_⟩
  · rw [← Bool.not_eq_true]
    refine (hcompletes (.cycles 223)).not.mpr ?_
    rintro ⟨n, hlow, hhigh⟩
    have hlength : lengthOf turns = 70000 := by decide
    have hframe : cyclesPerFrame = 70224 := rfl
    have hturn : (Turn.cycles 223).length = 223 := rfl
    rw [hlength, hframe] at hlow
    rw [hlength, hframe, hturn] at hhigh
    omega
  · exact (hcompletes (.cycles 224)).mpr ⟨1, by decide, by decide⟩

end Handheld.Picture
