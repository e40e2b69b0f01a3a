/-
Module: Handheld.Proofs.Board.SoundPower
Purpose: What the sound registers show after everything that has happened to a board. The power
  switch divides a history into periods: in one without power the channel and mixer registers are
  zero, and in one with power they show the bytes written since it began. The wave table takes no
  notice of the switch. Histories are given with the latest act first.
Main exports: Sound.isOn, Sound.hasBeenOff, Sound.sinceSwitch, Sound.Recalls, Board.recalls_sound,
  Board.sound_of_history
-/
import Handheld.Proofs.Board.Isolation
import Handheld.Proofs.Cartridge.History
import Handheld.Proofs.Checked.Arithmetic

namespace Handheld

open Board (Act)
open Cartridge (lastWrite lastWrite_inside lastWrite_outside)

/-- The act that puts every unit back into the state of power-on. -/
def Board.Act.isReset : Act → Bool
  | .reset _ => true
  | _ => false

namespace Sound

/-- What an act on the board does to its sound unit. -/
def meet (s : Sound) : Act → Sound
  | .write address value =>
    match Target.ofAddress address with
    | .sound i => (s.write i value).1
    | _ => s
  | .reset _ => {}
  | _ => s

/-! ### Periods of a history -/

/-- The unit is on: bit 7 of the byte written last to the power switch is set. It is on when nothing
    has been written there since power-on. -/
def isOn (history : List Act) : Bool :=
  (lastWrite 0xFF26 0xFF26 history).getD 0x80 &&& 0x80 != 0

/-- The unit has been off at some time since power-on. -/
def hasBeenOff : (history : List Act) → Bool
  | [] => false
  | act :: earlier => !act.isReset && (!isOn (act :: earlier) || hasBeenOff earlier)

/-- The acts since the unit was last switched on or off. An act that leaves it on or off as it was
    begins no new period. -/
def sinceSwitch : (history : List Act) → List Act
  | [] => []
  | act :: earlier =>
    if isOn (act :: earlier) = isOn earlier then act :: sinceSwitch earlier else []

/-- The byte that was last written to a register, if there is one since the last reset. -/
def written (i : Fin soundSize) (history : List Act) : Option UInt8 :=
  lastWrite (0xFF10 + i.val) (0xFF10 + i.val) history

/-- The byte of a channel or mixer register: the last that was written in a period with power. -/
def gatedByte (history : List Act) (i : Fin soundSize) : UInt8 :=
  if isOn history then
    (written i (sinceSwitch history)).getD (if hasBeenOff history then 0 else soundAtBoot.get i)
  else 0

/-- The stored byte of the power switch. The state of the channels is lost for good when the unit is
    switched off. -/
def switchByte (history : List Act) : UInt8 :=
  if isOn history then if hasBeenOff history then 0x80 else 0xF1 else 0

variable {history : List Act} {act : Act} {address : UInt16} {value : UInt8} {i j : Fin soundSize}

theorem written_self (h : address.toNat = 0xFF10 + i.val) :
    written i (.write address value :: history) = some value :=
  lastWrite_inside (by omega)

theorem written_other (h : address.toNat = 0xFF10 + i.val) (hne : j ≠ i) :
    written j (.write address value :: history) = written j history := by
  have hplace : j.val ≠ i.val := fun heq => hne (Fin.ext heq)
  exact lastWrite_outside (by omega)

theorem isOn_eq : isOn history = ((written powerIndex history).getD 0x80 &&& 0x80 != 0) := rfl

theorem isOn_cons_of_written (h : written powerIndex (act :: history) = written powerIndex history) :
    isOn (act :: history) = isOn history := by
  rw [isOn_eq, h, isOn_eq]

theorem isOn_write (hplace : address.toNat = 0xFF10 + powerIndex.val) (value : UInt8) :
    isOn (.write address value :: history) = (value &&& 0x80 != 0) := by
  rw [isOn_eq, written_self hplace]
  rfl

theorem isOn_of_none (h : written powerIndex history = none) : isOn history = true := by
  rw [isOn_eq, h]
  rfl

theorem isOn_reset (fill : RamFill) : isOn (.reset fill :: history) = true :=
  isOn_of_none rfl

/-- Only a unit that has been switched off is off. -/
theorem hasBeenOff_of_off (h : isOn history = false) : hasBeenOff history = true := by
  cases history with
  | nil => cases h
  | cons act earlier =>
      have hreset : act.isReset = false := by
        cases act with
        | reset fill => exact absurd (isOn_reset fill) (Bool.eq_false_iff.mp h)
        | _ => rfl
      rw [hasBeenOff, hreset, h]
      rfl

/-- An act that leaves the unit on or off as it was belongs to the period before it. -/
theorem period_cons (hreset : act.isReset = false) (h : isOn (act :: history) = isOn history) :
    hasBeenOff (act :: history) = hasBeenOff history ∧
      sinceSwitch (act :: history) = act :: sinceSwitch history := by
  refine ⟨?off, if_pos h⟩
  rw [hasBeenOff, hreset, h]
  cases hon : isOn history with
  | true => rfl
  | false => exact (hasBeenOff_of_off hon).symm

/-! ### What the unit remembers -/

/-- A sound unit as a history leaves it. -/
structure Recalls (history : List Act) (s : Sound) : Prop where
  power : s.powerByte = switchByte history
  gated : ∀ i, roleOf i = .gated → s.regs.get i = gatedByte history i
  wave : ∀ i, roleOf i = .wave → s.regs.get i = (written i history).getD 0

variable {s : Sound}

/-- Nothing has been written since power-on. -/
theorem recalls_start (hoff : hasBeenOff history = false) (hnone : ∀ i, written i history = none)
    (hperiod : ∀ i, written i (sinceSwitch history) = none) : Recalls history {} := by
  have hon : isOn history = true := isOn_of_none (hnone powerIndex)
  refine ⟨?power, fun i hrole => ?gated, fun i hrole => ?wave⟩
  case power =>
    rw [switchByte, hon, hoff]
    rfl
  case gated =>
    rw [gatedByte, hon, hoff, hperiod]
    rfl
  case wave =>
    rw [hnone]
    revert i hrole
    decide

theorem recalls_nil : Recalls [] {} :=
  recalls_start rfl (fun _ => rfl) fun _ => rfl

theorem recalls_reset (fill : RamFill) : Recalls (.reset fill :: history) {} := by
  apply recalls_start rfl fun _ => rfl
  intro i
  unfold sinceSwitch
  split <;> rfl

/-- Whether a register that is not the power switch takes a byte. -/
def accepts (s : Sound) (i : Fin soundSize) : Bool :=
  match roleOf i with
  | .wave => true
  | .gated => s.powered
  | _ => false

theorem get_write (hi : i ≠ powerIndex) (value : UInt8) : (s.write i value).1.regs.get j =
    if j = i ∧ s.accepts i = true then value else s.regs.get j := by
  have hput : (s.put i value).regs.get j = if j = i then value else s.regs.get j :=
    Board.get_set s.regs i j value
  unfold write accepts
  cases hrole : roleOf i with
  | absent => simp
  | power => exact absurd (eq_powerIndex hrole) hi
  | wave => simp [hput]
  | gated => cases s.powered <;> simp [hput]

/-- The bit that the power switch takes over. -/
theorem and_bit7 (value : UInt8) : value &&& 0x80 = if value &&& 0x80 != 0 then 0x80 else 0 := by
  have hmask : (0x80 : UInt8).toNat = 2 ^ 7 := rfl
  rw [and_mask_ne_zero value hmask, ← UInt8.toNat_inj, UInt8.toNat_and, hmask, Nat.and_two_pow]
  cases value.toNat.testBit 7 <;> rfl

/-- Whether a byte for the power switch takes the power away. -/
def cuts (s : Sound) (value : UInt8) : Bool :=
  s.powered && value &&& 0x80 == 0

theorem writePower_eq (value : UInt8) : (s.writePower value).1 =
    (if s.cuts value then s.clear else s).put powerIndex
      ((if s.cuts value then s.clear else s).powerByte &&& 0x7F ||| value &&& 0x80) := rfl

theorem get_clear_eq : s.clear.regs.get j = if j.val ≤ powerIndex.val then 0 else s.regs.get j :=
  Vector.getElem_ofFn j.isLt

theorem powerByte_writePower (value : UInt8) : (s.writePower value).1.powerByte =
    (if s.cuts value then 0 else s.powerByte) &&& 0x7F ||| value &&& 0x80 := by
  have hput (t : Sound) (byte : UInt8) : (t.put powerIndex byte).powerByte = byte :=
    Vector.getElem_set_self powerIndex.isLt
  have hclear : s.clear.regs.get powerIndex = 0 := by
    rw [get_clear_eq, if_pos (Nat.le_refl _)]
  rw [writePower_eq, hput]
  split
  · exact congrArg (· &&& 0x7F ||| value &&& 0x80) hclear
  · rfl

theorem get_writePower (hj : j ≠ powerIndex) (value : UInt8) :
    (s.writePower value).1.regs.get j =
      if s.cuts value = true ∧ j.val ≤ powerIndex.val then 0 else s.regs.get j := by
  rw [writePower_eq, get_put_of_ne _ hj]
  cases s.cuts value with
  | true => simp [get_clear_eq]
  | false => simp

namespace Recalls

variable (h : Recalls history s)
include h

theorem powered : s.powered = isOn history := by
  unfold Sound.powered
  rw [h.power, switchByte]
  cases isOn history <;> cases hasBeenOff history <;> rfl

/-- An act that writes no register. -/
theorem pass (hreset : act.isReset = false)
    (hpass : ∀ history i, written i (act :: history) = written i history) :
    Recalls (act :: history) s := by
  have hon := isOn_cons_of_written (hpass history powerIndex)
  obtain ⟨hoff, hperiod⟩ := period_cons hreset hon
  refine ⟨?power, fun i hrole => ?gated, fun i hrole => ?wave⟩
  case power =>
    rw [h.power, switchByte, switchByte, hon, hoff]
  case gated =>
    rw [h.gated i hrole, gatedByte, gatedByte, hon, hoff, hperiod, hpass]
  case wave =>
    rw [h.wave i hrole, hpass]

/-- A register that is not the power switch is written. -/
theorem store (hplace : address.toNat = 0xFF10 + i.val) (hi : i ≠ powerIndex) (value : UInt8) :
    Recalls (.write address value :: history) (s.write i value).1 := by
  have hon : isOn (.write address value :: history) = isOn history :=
    isOn_cons_of_written (written_other hplace hi.symm)
  obtain ⟨hoff, hperiod⟩ := period_cons rfl hon
  refine ⟨?power, fun j hrole => ?gated, fun j hrole => ?wave⟩
  case power =>
    have hkeep : (s.write i value).1.powerByte = s.powerByte :=
      (get_write hi value).trans (if_neg fun hsame => hi hsame.1.symm)
    rw [hkeep, h.power, switchByte, switchByte, hon, hoff]
  case gated =>
    rw [get_write hi, h.gated j hrole, gatedByte, gatedByte, hon, hoff, hperiod]
    by_cases hsame : j = i
    · subst hsame
      rw [written_self hplace, accepts, hrole, h.powered]
      cases isOn history <;> simp
    · rw [written_other hplace hsame, if_neg fun heq => hsame heq.1]
  case wave =>
    rw [get_write hi, h.wave j hrole]
    by_cases hsame : j = i
    · subst hsame
      rw [written_self hplace, accepts, hrole]
      simp
    · rw [written_other hplace hsame, if_neg fun heq => hsame heq.1]

/-- The power switch is written. -/
theorem switch (hplace : address.toNat = 0xFF10 + powerIndex.val) (value : UInt8) :
    Recalls (.write address value :: history) (s.writePower value).1 := by
  have hgate {j : Fin soundSize} (hrole : roleOf j = .gated) :
      j ≠ powerIndex ∧ j.val ≤ powerIndex.val := by
    revert j
    decide
  have hwave {j : Fin soundSize} (hrole : roleOf j = .wave) :
      j ≠ powerIndex ∧ ¬ j.val ≤ powerIndex.val := by
    revert j
    decide
  -- whether the byte begins a period, ends one or changes nothing hangs on its bit 7 and on whether
  -- the unit is on
  obtain ⟨off, hoff⟩ : ∃ off, (value &&& 0x80 == 0) = off := ⟨_, rfl⟩
  have hon : isOn (.write address value :: history) = !off := by
    rw [isOn_write hplace, bne, hoff]
  have hcut : s.cuts value = (isOn history && off) := by
    rw [cuts, h.powered, hoff]
  have hbeen : hasBeenOff (.write address value :: history) = (off || hasBeenOff history) := by
    rw [hasBeenOff, hon]
    cases off <;> rfl
  refine ⟨?power, fun j hrole => ?gated, fun j hrole => ?wave⟩
  case power =>
    have hbit : value &&& 0x80 = if off then 0 else 0x80 := by
      rw [and_bit7, bne, hoff]
      cases off <;> rfl
    rw [powerByte_writePower, hcut, hbit, h.power, switchByte, switchByte, hon, hbeen]
    cases hwas : isOn history with
    | true => cases off <;> cases hasBeenOff history <;> rfl
    | false =>
        rw [hasBeenOff_of_off hwas]
        cases off <;> rfl
  case gated =>
    obtain ⟨hne, hbelow⟩ := hgate hrole
    have hother : written j (.write address value :: sinceSwitch history) =
        written j (sinceSwitch history) := written_other hplace hne
    rw [get_writePower hne, hcut, h.gated j hrole, gatedByte, gatedByte, sinceSwitch, hon, hbeen]
    cases hwas : isOn history with
    | true => cases off <;> simp [hbelow, hother]
    | false =>
        rw [hasBeenOff_of_off hwas]
        cases off <;> simp [written, lastWrite]
  case wave =>
    obtain ⟨hne, habove⟩ := hwave hrole
    rw [get_writePower hne, if_neg fun hboth => habove hboth.2, h.wave j hrole,
      written_other hplace hne]

/-- One more act. -/
theorem meet (act : Act) : Recalls (act :: history) (s.meet act) := by
  cases act with
  | write address value =>
      unfold Sound.meet
      dsimp only
      generalize htarget : Target.ofAddress address = target
      cases Target.standsAt_of_eq htarget with
      | sound i high hplace =>
          dsimp only
          by_cases hi : i = powerIndex
          · subst hi
            exact h.switch hplace value
          · exact h.store hplace hi value
      | _ =>
          apply h.pass rfl
          intro history i
          have hi : i.val < 0x30 := i.isLt
          exact lastWrite_outside (by omega)
  | reset fill => exact recalls_reset fill
  | _ => exact h.pass rfl fun _ _ => rfl

end Recalls

/-! ### Addresses -/

/-- The addresses of the channel and mixer registers, which follow the power switch. -/
def FollowsPower (address : UInt16) : Prop :=
  0xFF10 ≤ address.toNat ∧ address.toNat ≤ 0xFF25 ∧ address.toNat ≠ 0xFF15 ∧
    address.toNat ≠ 0xFF1F

instance (address : UInt16) : Decidable (FollowsPower address) :=
  inferInstanceAs (Decidable (_ ∧ _ ∧ _ ∧ _))

theorem roleOf_of_followsPower (h : FollowsPower address)
    (hplace : address.toNat = 0xFF10 + i.val) : roleOf i = .gated := by
  obtain ⟨low, high, hgap, hgap'⟩ := h
  unfold roleOf
  rw [if_neg (by omega), if_pos (by omega)]

theorem roleOf_of_wave (low : 0xFF30 ≤ address.toNat) (hplace : address.toNat = 0xFF10 + i.val) :
    roleOf i = .wave := by
  unfold roleOf
  rw [if_neg (by omega), if_neg (by omega), if_neg (by omega), if_neg (by omega)]

theorem read_of_role (s : Sound) (hrole : roleOf i = .gated ∨ roleOf i = .wave) :
    s.read i = s.regs.get i := by
  unfold read
  rcases hrole with hrole | hrole <;> rw [hrole] <;> rfl

end Sound

namespace Board

theorem sound_act (b : Board) (act : Act) : (b.act act).sound = b.sound.meet act := by
  cases act with
  | write address value =>
      obtain ⟨oam, hunits⟩ := b.exists_written address value (.ofAddress address)
      rw [Board.act, write, hunits]
      rfl
  | reset fill => rfl
  | _ =>
      exact view_act Board.sound (fun _ _ _ _ => rfl) (fun _ _ => Act.noConfusion)
        (fun _ => Act.noConfusion)

/-- However much has happened since power-on. -/
theorem recalls_sound (cartridge : Cartridge) (fill : RamFill) (history : List Act) :
    ((powerOn cartridge fill).actAll history.reverse).sound.Recalls history := by
  induction history with
  | nil => exact Sound.recalls_nil
  | cons act earlier ih =>
      rw [List.reverse_cons, actAll_append]
      change (Board.act _ act).sound.Recalls _
      rw [sound_act]
      exact ih.meet act

/-- The sound unit answers from 0xFF10 to 0xFF3F. -/
theorem exists_read_sound (b : Board) {address : UInt16} (low : 0xFF10 ≤ address.toNat)
    (high : address.toNat ≤ 0xFF3F) :
    ∃ i : Fin soundSize, address.toNat = 0xFF10 + i.val ∧ b.read address = b.sound.read i := by
  unfold read
  generalize htarget : Target.ofAddress address = target
  cases Target.standsAt_of_eq htarget with
  | sound i _ hplace => exact ⟨i, hplace, rfl⟩
  | _ => omega

variable {b : Board} {history : List Act} (h : b.sound.Recalls history)
include h

theorem read_followsPower {address : UInt16} (hfollows : Sound.FollowsPower address)
    (cartridge : Cartridge) (fill : RamFill) : b.read address =
      if Sound.isOn history then
        (lastWrite address.toNat address.toNat (Sound.sinceSwitch history)).getD
          (if Sound.hasBeenOff history then 0 else (powerOn cartridge fill).read address)
      else 0 := by
  have high : address.toNat ≤ 0xFF3F := Nat.le_trans hfollows.2.1 (by decide)
  obtain ⟨i, hplace, hread⟩ := b.exists_read_sound hfollows.1 high
  obtain ⟨j, hplace', hboot⟩ := (powerOn cartridge fill).exists_read_sound hfollows.1 high
  obtain rfl : j = i := Fin.ext (by omega)
  have hrole := Sound.roleOf_of_followsPower hfollows hplace
  have hstart : (powerOn cartridge fill).sound.regs.get j = soundAtBoot.get j := rfl
  rw [hread, Sound.read_of_role _ (.inl hrole), h.gated j hrole, Sound.gatedByte, Sound.written,
    hboot, Sound.read_of_role _ (.inl hrole), hstart, hplace]

theorem read_powerSwitch : b.read 0xFF26 =
    if Sound.isOn history then if Sound.hasBeenOff history then 0xF0 else 0xF1 else 0x70 := by
  have low : 0xFF10 ≤ (0xFF26 : UInt16).toNat := by decide
  obtain ⟨i, hplace, hread⟩ := b.exists_read_sound low (by decide)
  obtain rfl : i = Sound.powerIndex := Fin.ext (Nat.add_left_cancel hplace.symm)
  have hpower : b.sound.read Sound.powerIndex = b.sound.powerByte ||| 0x70 := rfl
  rw [hread, hpower, h.power, Sound.switchByte]
  cases Sound.isOn history <;> cases Sound.hasBeenOff history <;> rfl

theorem read_wave {address : UInt16} (low : 0xFF30 ≤ address.toNat)
    (high : address.toNat ≤ 0xFF3F) :
    b.read address = (lastWrite address.toNat address.toNat history).getD 0 := by
  obtain ⟨i, hplace, hread⟩ := b.exists_read_sound (Nat.le_trans (by decide) low) high
  have hrole := Sound.roleOf_of_wave low hplace
  rw [hread, Sound.read_of_role _ (.inr hrole), h.wave i hrole, Sound.written, hplace]

omit h

/-- The acts that give the unit its power back, if it is off. -/
def Act.switchesOn : Act → Bool
  | .write address value => address == 0xFF26 && value &&& 0x80 != 0
  | .reset _ => true
  | _ => false

theorem Act.isOn_of_not_switchesOn {later history : List Act} (hoff : Sound.isOn history = false)
    (hlater : ∀ act ∈ later, act.switchesOn = false) : Sound.isOn (later ++ history) = false := by
  induction later with
  | nil => exact hoff
  | cons act rest ih =>
      obtain ⟨hact, hrest⟩ := List.forall_mem_cons.mp hlater
      have hbefore := ih hrest
      cases act with
      | write address value =>
          by_cases haddress : address = 0xFF26
          · subst haddress
            have hbit : (value &&& 0x80 != 0) = false := hact
            rw [List.cons_append, Sound.isOn_write rfl, hbit]
          · have houtside : address.toNat < 0xFF26 ∨ 0xFF26 < address.toNat :=
              Nat.lt_or_gt_of_ne fun heq => haddress (UInt16.toNat_inj.mp heq)
            exact (Sound.isOn_cons_of_written (lastWrite_outside houtside)).trans hbefore
      | reset fill => cases hact
      | _ => exact (Sound.isOn_cons_of_written rfl).trans hbefore

/-- The sound registers, for everything that can have happened since power-on. Each channel and mixer
    register reads zero without power; with power it reads the last byte written to it in the period
    that lasts, or else what it read at power-on, or zero once the unit has been off. The power switch
    reads 0x70 without power, 0xF1 before the unit has ever been off and 0xF0 afterwards. The wave
    table always reads the last byte written. And whatever happens to a unit that is off, it stays
    off, with its registers at zero, until bit 7 of the power switch is written or the console is
    reset. -/
theorem sound_of_history (cartridge : Cartridge) (fill : RamFill) (history : List Act) :
    let b := (powerOn cartridge fill).actAll history.reverse
    (∀ address, Sound.FollowsPower address → b.read address =
        if Sound.isOn history then
          (lastWrite address.toNat address.toNat (Sound.sinceSwitch history)).getD
            (if Sound.hasBeenOff history then 0 else (powerOn cartridge fill).read address)
        else 0) ∧
      b.read 0xFF26 =
        (if Sound.isOn history then if Sound.hasBeenOff history then 0xF0 else 0xF1 else 0x70) ∧
      (∀ address, 0xFF30 ≤ address.toNat → address.toNat ≤ 0xFF3F →
        b.read address = (lastWrite address.toNat address.toNat history).getD 0) ∧
      (Sound.isOn history = false → ∀ later : List Act, (∀ act ∈ later, act.switchesOn = false) →
        (b.actAll later.reverse).read 0xFF26 = 0x70 ∧
          ∀ address, Sound.FollowsPower address → (b.actAll later.reverse).read address = 0) := by
  intro b
  have hrecalls : b.sound.Recalls history := recalls_sound cartridge fill history
  refine ⟨fun address hfollows => read_followsPower hrecalls hfollows cartridge fill,
    read_powerSwitch hrecalls, fun address low high => read_wave hrecalls low high, ?stays⟩
  case stays =>
    intro hoff later hlater
    have hstill : Sound.isOn (later ++ history) = false := Act.isOn_of_not_switchesOn hoff hlater
    have hlong : (b.actAll later.reverse).sound.Recalls (later ++ history) := by
      have hacts := recalls_sound cartridge fill (later ++ history)
      rwa [List.reverse_append, actAll_append] at hacts
    refine ⟨?switch, fun address hfollows => ?register⟩
    case switch =>
      rw [read_powerSwitch hlong, hstill]
      rfl
    case register =>
      rw [read_followsPower hlong hfollows cartridge fill, hstill]
      rfl

/-- The unit is switched off. The register that is written before and after shows neither byte, and
    a byte of the wave table is stored. -/
def mutedHistory : List Act :=
  [.write 0xFF30 0x33, .write 0xFF12 0x77, .write 0xFF26 0x00, .write 0xFF12 0x44]

/-- It is switched on, the register written, and the switch thrown a second time. -/
def revivedHistory : List Act :=
  [.write 0xFF26 0xFF, .write 0xFF12 0x05, .write 0xFF26 0x80] ++ mutedHistory

theorem sound_of_history_revived :
    let start := powerOn ⟨default, #[], #[], .plain⟩ .zeros
    let off := start.actAll mutedHistory.reverse
    let on := start.actAll revivedHistory.reverse
    let later : List Act := [.write 0xFF12 0x66, .write 0xFF26 0x7F]
    Sound.FollowsPower 0xFF11 ∧ Sound.FollowsPower 0xFF12 ∧
      (Sound.isOn mutedHistory = false ∧ (∀ act ∈ later, act.switchesOn = false) ∧
        (off.actAll later.reverse).read 0xFF12 = 0) ∧
      on.read 0xFF12 = 0x05 ∧ on.read 0xFF11 = 0 ∧ on.read 0xFF26 = 0xF0 ∧ on.read 0xFF30 = 0x33 := by
  intro start off on later
  have hoff : Sound.isOn mutedHistory = false := by decide
  have hlater : ∀ act ∈ later, act.switchesOn = false := by decide
  obtain ⟨-, -, -, hstays⟩ := sound_of_history ⟨default, #[], #[], .plain⟩ .zeros mutedHistory
  obtain ⟨hregisters, hswitch, hwave, -⟩ :=
    sound_of_history ⟨default, #[], #[], .plain⟩ .zeros revivedHistory
  exact ⟨by decide, by decide, ⟨hoff, hlater, (hstays hoff later hlater).2 0xFF12 (by decide)⟩,
    hregisters 0xFF12 (by decide), hregisters 0xFF11 (by decide), hswitch,
    hwave 0xFF30 (by decide) (by decide)⟩

end Board

end Handheld
