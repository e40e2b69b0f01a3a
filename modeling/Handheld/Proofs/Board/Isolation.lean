/-
Module: Handheld.Proofs.Board.Isolation
Purpose: How far a write to a register reaches. Each unit keeps to its own registers, and what
  crosses from one register to another is told by one relation, first between the targets of the
  memory map and then between addresses. The memories keep their contents, and no register but the
  request byte withdraws a request.
Main exports: Target.Reaches, Target.isRegister, Board.Affects, Board.Isolated,
  Board.readTarget_writeTarget, Board.write_isolated
-/
import Handheld.Proofs.Board.Store
import Handheld.Proofs.Board.Written

namespace Handheld

/-! ### The units by themselves -/

namespace Serial

/-- The address of a register. -/
def Register.address : Register → UInt16
  | .data => 0xFF01
  | .control => 0xFF02

theorem Register.eq_address {address : UInt16} {register : Register}
    (h : ofAddress? address = some register) : address = register.address := by
  unfold ofAddress? at h
  repeat' split at h
  all_goals
    cases h
    try assumption

theorem read_write_of_ne (s : Serial) {register other : Register} (h : other ≠ register)
    (value : UInt8) : (s.write register value).read other = s.read other := by
  cases register <;> cases other <;> first | exact absurd rfl h | rfl

end Serial

namespace Timer

/-- The address of a register. -/
def Register.address : Register → UInt16
  | .divider => 0xFF04
  | .counter => 0xFF05
  | .modulo => 0xFF06
  | .control => 0xFF07

theorem Register.eq_address {address : UInt16} {register : Register}
    (h : ofAddress? address = some register) : address = register.address := by
  unfold ofAddress? at h
  repeat' split at h
  all_goals
    cases h
    try assumption

/-- The registers whose writing can make the counter count. -/
def Register.counts : Register → Bool
  | .divider | .control => true
  | .counter | .modulo => false

/-- Counting shows in the counter alone. -/
theorem read_change (t : Timer) (f : Timer → Timer) {register : Register}
    (h : register ≠ .counter) : (t.change f).1.read register = (f t).read register := by
  unfold change count
  dsimp only
  repeat' split
  all_goals
    cases register
    all_goals first | exact absurd rfl h | rfl

theorem read_write_of_ne (t : Timer) {register other : Register} (h : other ≠ register)
    (hcounter : register.counts = true → other ≠ .counter) (value : UInt8) :
    (t.write register value).1.read other = t.read other := by
  unfold write
  cases register with
  | divider | control =>
      dsimp only
      rw [read_change _ _ (hcounter rfl)]
      cases other <;> first | exact absurd rfl h | rfl
  | counter | modulo => cases other <;> first | exact absurd rfl h | rfl

/-- No interrupt is due otherwise. -/
theorem not_due_of_not_counts (t : Timer) {register : Register} (h : register.counts = false)
    (value : UInt8) : (t.write register value).2 = false := by
  cases register <;> first | rfl | cases h

end Timer

namespace Sound

variable {i j : Fin soundSize}

theorem eq_powerIndex (h : roleOf i = .power) : i = powerIndex := by
  unfold roleOf at h
  repeat' split at h
  all_goals cases h
  next hplace => exact Fin.ext hplace

/-- What is read hangs on the byte at the place. -/
theorem read_congr {s s' : Sound} (h : s'.regs.get j = s.regs.get j) : s'.read j = s.read j := by
  unfold read
  cases hrole : roleOf j with
  | absent => rfl
  | power =>
      obtain rfl := eq_powerIndex hrole
      exact congrArg (· ||| 0x70) h
  | gated | wave => exact h

theorem get_put_of_ne (s : Sound) (h : j ≠ i) (value : UInt8) :
    (s.put i value).regs.get j = s.regs.get j :=
  Vector.getElem_set_ne i.isLt j.isLt fun heq => h (Fin.ext heq.symm)

theorem get_clear (s : Sound) (h : powerIndex < j) : s.clear.regs.get j = s.regs.get j := by
  have habove : ¬ j.val ≤ powerIndex.val := Nat.not_le.mpr h
  exact (Vector.getElem_ofFn j.isLt).trans (if_neg habove)

/-- A register at another place keeps its byte, unless the power switch clears it. -/
theorem read_write_of_ne (s : Sound) (h : j ≠ i) (hpower : i = powerIndex → powerIndex < j)
    (value : UInt8) : (s.write i value).1.read j = s.read j := by
  apply read_congr
  unfold write
  cases hrole : roleOf i with
  | absent => rfl
  | power =>
      obtain rfl := eq_powerIndex hrole
      refine (get_put_of_ne _ h _).trans ?_
      split
      · exact s.get_clear (hpower rfl)
      · rfl
  | wave => exact s.get_put_of_ne h value
  | gated =>
      dsimp only
      split
      · exact s.get_put_of_ne h value
      · rfl

end Sound

namespace Picture

/-- The address of a register. -/
def Register.address : Register → UInt16
  | .lcdc => 0xFF40
  | .stat => 0xFF41
  | .scy => 0xFF42
  | .scx => 0xFF43
  | .ly => 0xFF44
  | .lyc => 0xFF45
  | .bgp => 0xFF47
  | .obp0 => 0xFF48
  | .obp1 => 0xFF49
  | .wy => 0xFF4A
  | .wx => 0xFF4B

theorem Register.eq_address {address : UInt16} {register : Register}
    (h : ofAddress? address = some register) : address = register.address := by
  unfold ofAddress? at h
  apply UInt16.toNat_inj.mp
  split at h
  all_goals
    cases h
    try assumption

/-- The registers that show in another one, each with the registers in which it shows. -/
inductive Register.ShowsIn : Register → Register → Prop where
  /-- The switch of the display takes the raster to the top of the frame. -/
  | line : ShowsIn .lcdc .ly
  | mode : ShowsIn .lcdc .stat
  | compared : ShowsIn .lyc .stat

theorem read_write_of_ne (u : Picture) {register other : Register} (h : other ≠ register)
    (hshows : ¬ register.ShowsIn other) (value : UInt8) :
    (u.write register value).1.read other = u.read other := by
  cases register with
  | lcdc =>
      unfold write writeLcdc setLcd
      dsimp only
      cases other with
      | lcdc => exact absurd rfl h
      | ly => exact absurd .line hshows
      | stat => exact absurd .mode hshows
      | _ =>
          repeat' split
          all_goals rfl
  | lyc =>
      cases other with
      | lyc => exact absurd rfl h
      | stat => exact absurd .compared hshows
      | _ => rfl
  | _ => cases other <;> first | exact absurd rfl h | rfl

/-- What the processor can store in the picture unit, and the frame. -/
def store (u : Picture) : Vector UInt8 vramSize × Vector UInt8 oamSize × Frame :=
  (u.vram, u.oam, u.frame)

theorem store_write (u : Picture) (register : Register) (value : UInt8) :
    (u.write register value).1.store = u.store := by
  cases register with
  | lcdc =>
      unfold write writeLcdc setLcd
      dsimp only
      repeat' split
      all_goals rfl
  | _ => rfl

/-- Whether the memories are open hangs on the raster. -/
theorem visibleMode_of_raster {u v : Picture} (h : u.raster = v.raster) :
    u.visibleMode = v.visibleMode := by
  have hlit : u.lcdOn = v.lcdOn := congrArg Raster.lit h
  have hmode : u.mode = v.mode := congrArg Raster.mode h
  unfold visibleMode
  rw [hlit, hmode]

theorem readVram_write (u : Picture) {register : Register} (h : register ≠ .lcdc) (value : UInt8)
    (i : Fin vramSize) : (u.write register value).1.readVram i = u.readVram i := by
  have hvram : (u.write register value).1.vram = u.vram :=
    congrArg (fun store => store.1) (u.store_write register value)
  unfold readVram vramOpen
  rw [visibleMode_of_raster (raster_write h u value), hvram]

theorem readOam_write (u : Picture) {register : Register} (h : register ≠ .lcdc) (value : UInt8)
    (i : Fin oamSize) : (u.write register value).1.readOam i = u.readOam i := by
  have hoam : (u.write register value).1.oam = u.oam :=
    congrArg (fun store => store.2.1) (u.store_write register value)
  unfold readOam oamOpen
  rw [visibleMode_of_raster (raster_write h u value), hoam]

/-- The registers whose writing can make the status line rise. -/
def Register.rises : Register → Bool
  | .lcdc | .stat | .lyc => true
  | _ => false

/-- No interrupt is requested otherwise. -/
theorem linesOf_write (u : Picture) {register : Register} (h : register.rises = false)
    (value : UInt8) : linesOf (u.write register value).2 = ⟨0⟩ := by
  cases register with
  | lcdc | stat | lyc => cases h
  | _ => rfl

end Picture

/-! ### The targets of the memory map -/

namespace Target

/-- The targets of the registers, and of the gaps between them. -/
def isRegister : Target → Bool
  | .rom | .vram _ | .cartridgeRam | .wram _ | .oam _ | .hram _ => false
  | _ => true

/-- A write to the first register may change what is read at the second target. -/
inductive Reaches : Target → Target → Prop where
  | itself {target : Target} (h : target ≠ .nothing) : Reaches target target
  | count {register : Timer.Register} (h : register.counts = true) :
      Reaches (.timer register) (.timer .counter)
  | overflow {register : Timer.Register} (h : register.counts = true) :
      Reaches (.timer register) .requests
  | power {i : Fin soundSize} (h : i ≤ Sound.powerIndex) :
      Reaches (.sound Sound.powerIndex) (.sound i)
  | shows {register other : Picture.Register} (h : register.ShowsIn other) :
      Reaches (.picture register) (.picture other)
  | rise {register : Picture.Register} (h : register.rises = true) :
      Reaches (.picture register) .requests
  | vram (i : Fin Picture.vramSize) : Reaches (.picture .lcdc) (.vram i)
  | oam (i : Fin Picture.oamSize) : Reaches (.picture .lcdc) (.oam i)
  | copy (i : Fin Picture.oamSize) : Reaches .transfer (.oam i)

variable {address other : UInt16}

theorem ofAddress_eq_serial {register : Serial.Register}
    (h : ofAddress address = .serial register) : address = register.address := by
  cases standsAt_of_eq h with
  | serial _ _ _ h => exact Serial.Register.eq_address h

theorem ofAddress_eq_timer {register : Timer.Register}
    (h : ofAddress address = .timer register) : address = register.address := by
  cases standsAt_of_eq h with
  | timer _ _ _ h => exact Timer.Register.eq_address h

theorem ofAddress_eq_picture {register : Picture.Register}
    (h : ofAddress address = .picture register) : address = register.address := by
  cases standsAt_of_eq h with
  | picture _ _ _ _ h => exact Picture.Register.eq_address h

theorem ofAddress_eq_sound {i : Fin soundSize} (h : ofAddress address = .sound i) :
    address.toNat = 0xFF10 + i.val := by
  cases standsAt_of_eq h with
  | sound _ _ h => exact h

theorem ofAddress_eq_requests (h : ofAddress address = .requests) : address = 0xFF0F := by
  cases standsAt_of_eq h with
  | requests h => exact UInt16.toNat_inj.mp h

theorem ofAddress_eq_transfer (h : ofAddress address = .transfer) : address = 0xFF46 := by
  cases standsAt_of_eq h with
  | transfer h => exact UInt16.toNat_inj.mp h

/-- Every register is at one address. -/
theorem eq_of_ofAddress_eq (hregister : (ofAddress address).isRegister = true)
    (hsome : ofAddress address ≠ .nothing) (h : ofAddress other = ofAddress address) :
    other = address := by
  generalize htarget : ofAddress address = target at *
  cases target with
  | rom | vram | cartridgeRam | wram | oam | hram => cases hregister
  | nothing => exact absurd rfl hsome
  | serial register => exact (ofAddress_eq_serial h).trans (ofAddress_eq_serial htarget).symm
  | timer register => exact (ofAddress_eq_timer h).trans (ofAddress_eq_timer htarget).symm
  | picture register => exact (ofAddress_eq_picture h).trans (ofAddress_eq_picture htarget).symm
  | sound i =>
      exact UInt16.toNat_inj.mp ((ofAddress_eq_sound h).trans (ofAddress_eq_sound htarget).symm)
  | requests => exact (ofAddress_eq_requests h).trans (ofAddress_eq_requests htarget).symm
  | transfer => exact (ofAddress_eq_transfer h).trans (ofAddress_eq_transfer htarget).symm
  | joypad =>
      cases standsAt_of_eq h with
      | joypad h =>
          cases standsAt_of_eq htarget with
          | joypad h' => exact UInt16.toNat_inj.mp (h.trans h'.symm)
  | enable =>
      cases standsAt_of_eq h with
      | enable h =>
          cases standsAt_of_eq htarget with
          | enable h' => exact UInt16.toNat_inj.mp (h.trans h'.symm)

end Target

namespace Board

/-- Every target that a register does not reach reads as before. -/
theorem readTarget_writeTarget (b : Board) {written target : Target}
    (hwritten : written.isRegister = true) (h : ¬ written.Reaches target)
    (address other : UInt16) (value : UInt8) :
    (b.writeTarget address value written).1.readTarget other target =
      b.readTarget other target := by
  obtain ⟨oam, hunits⟩ := b.exists_written address value written
  rw [hunits]
  cases written with
  | rom | vram | cartridgeRam | wram | oam | hram => cases hwritten
  | joypad =>
      cases target with
      | joypad => exact absurd (.itself (by simp)) h
      | _ => rfl
  | serial register =>
      cases target with
      | serial other =>
          apply Serial.read_write_of_ne
          rintro rfl
          exact h (.itself (by simp))
      | _ => rfl
  | timer register =>
      cases target with
      | timer other =>
          apply Timer.read_write_of_ne
          · rintro rfl
            exact h (.itself (by simp))
          · rintro hcounts rfl
            exact h (.count hcounts)
      | requests =>
          have hcounts : register.counts = false := by
            by_contra hcounts
            exact h (.overflow (Bool.eq_true_of_not_eq_false hcounts))
          have hraised : (b.written address value oam (.timer register)).interrupts =
              b.interrupts.raise (.onlyIf (b.timer.write register value).2 .timer) := rfl
          rw [Timer.not_due_of_not_counts b.timer hcounts] at hraised
          exact congrArg InterruptController.readRequests
            (hraised.trans (InterruptController.raise_empty _))
      | _ => rfl
  | requests =>
      cases target with
      | requests => exact absurd (.itself (by simp)) h
      | _ => rfl
  | sound i =>
      cases target with
      | sound j =>
          apply Sound.read_write_of_ne
          · rintro rfl
            exact h (.itself (by simp))
          · rintro rfl
            by_contra hplace
            exact h (.power (Fin.not_lt.mp hplace))
      | _ => rfl
  | transfer =>
      cases target with
      | transfer => exact absurd (.itself (by simp)) h
      | oam i => exact absurd (.copy i) h
      | _ => rfl
  | picture register =>
      cases target with
      | vram i =>
          apply Picture.readVram_write
          rintro rfl
          exact h (.vram i)
      | oam i =>
          apply Picture.readOam_write
          rintro rfl
          exact h (.oam i)
      | picture other =>
          apply Picture.read_write_of_ne
          · rintro rfl
            exact h (.itself (by simp))
          · exact fun hshows => h (.shows hshows)
      | requests =>
          have hrises : register.rises = false := by
            by_contra hrises
            exact h (.rise (Bool.eq_true_of_not_eq_false hrises))
          have hraised : (b.written address value oam (.picture register)).interrupts =
              b.interrupts.raise (Picture.linesOf (b.picture.write register value).2) := rfl
          rw [Picture.linesOf_write b.picture hrises] at hraised
          exact congrArg InterruptController.readRequests
            (hraised.trans (InterruptController.raise_empty _))
      | _ => rfl
  | enable =>
      cases target with
      | enable => exact absurd (.itself (by simp)) h
      | _ => rfl
  | nothing => rfl

/-- What a write to a register leaves alone whatever it reaches: the cartridge, the memories with
    their contents, and the frame. -/
structure KeepsMemory (b after : Board) : Prop where
  cartridge : after.cartridge = b.cartridge
  wram : after.wram = b.wram
  hram : after.hram = b.hram
  vram : after.picture.vram = b.picture.vram
  frame : after.picture.frame = b.picture.frame

theorem keepsMemory_writeTarget (b : Board) {written : Target}
    (hwritten : written.isRegister = true) (address : UInt16) (value : UInt8) :
    b.KeepsMemory (b.writeTarget address value written).1 := by
  obtain ⟨oam, hunits⟩ := b.exists_written address value written
  rw [hunits]
  cases written with
  | rom | vram | cartridgeRam | wram | oam | hram => cases hwritten
  | picture register =>
      have hstore := b.picture.store_write register value
      exact ⟨rfl, rfl, rfl, congrArg (fun store => store.1) hstore,
        congrArg (fun store => store.2.2) hstore⟩
  | _ => exact ⟨rfl, rfl, rfl, rfl, rfl⟩

/-- Only a block transfer writes the sprite table. -/
theorem oam_writeTarget (b : Board) {written : Target} (hwritten : written.isRegister = true)
    (h : written ≠ .transfer) (address : UInt16) (value : UInt8) :
    (b.writeTarget address value written).1.picture.oam = b.picture.oam := by
  obtain ⟨oam, hunits⟩ := b.exists_written address value written
  rw [hunits]
  cases written with
  | rom | vram | cartridgeRam | wram | oam | hram => cases hwritten
  | transfer => exact absurd rfl h
  | picture register =>
      exact congrArg (fun store => store.2.1) (b.picture.store_write register value)
  | _ => rfl

/-- Only the request byte withdraws a request. -/
theorem exists_lines_writeTarget (b : Board) {written : Target}
    (hwritten : written.isRegister = true) (h : written ≠ .requests) (address : UInt16)
    (value : UInt8) :
    ∃ lines, (b.writeTarget address value written).1.interrupts.requested =
      b.interrupts.requested.union lines := by
  obtain ⟨oam, hunits⟩ := b.exists_written address value written
  rw [hunits]
  cases written with
  | rom | vram | cartridgeRam | wram | oam | hram => cases hwritten
  | requests => exact absurd rfl h
  | timer register | picture register => exact ⟨_, rfl⟩
  | _ => exact ⟨⟨0⟩, (LineSet.union_empty _).symm⟩

/-! ### The registers by address -/

/-- The addresses of the registers, and of the gaps between them. -/
def IsIo (address : UInt16) : Prop :=
  0xFF00 ≤ address.toNat ∧ address.toNat ≤ 0xFF7F ∨ address = 0xFFFF

/-- A write to the first address may change what is read at the second. -/
inductive Affects : UInt16 → UInt16 → Prop where
  | itself (address : UInt16) : Affects address address
  | divider {other : UInt16} (h : other = 0xFF05 ∨ other = 0xFF0F) : Affects 0xFF04 other
  | timerControl {other : UInt16} (h : other = 0xFF05 ∨ other = 0xFF0F) : Affects 0xFF07 other
  | soundPower {other : UInt16} (low : 0xFF10 ≤ other.toNat) (high : other.toNat ≤ 0xFF25) :
      Affects 0xFF26 other
  | lcdc {other : UInt16} (h : other = 0xFF41 ∨ other = 0xFF44 ∨ other = 0xFF0F) :
      Affects 0xFF40 other
  /-- The memories of the picture unit may be opened or closed. -/
  | vram {other : UInt16} (low : 0x8000 ≤ other.toNat) (high : other.toNat ≤ 0x9FFF) :
      Affects 0xFF40 other
  | oam {other : UInt16} (low : 0xFE00 ≤ other.toNat) (high : other.toNat ≤ 0xFE9F) :
      Affects 0xFF40 other
  | stat : Affects 0xFF41 0xFF0F
  | lyc {other : UInt16} (h : other = 0xFF41 ∨ other = 0xFF0F) : Affects 0xFF45 other
  | transfer {other : UInt16} (low : 0xFE00 ≤ other.toNat) (high : other.toNat ≤ 0xFE9F) :
      Affects 0xFF46 other

theorem isRegister_of_isIo {address : UInt16} (h : IsIo address) :
    (Target.ofAddress address).isRegister = true := by
  unfold IsIo at h
  rw [← UInt16.toNat_inj] at h
  generalize htarget : Target.ofAddress address = target
  cases Target.standsAt_of_eq htarget with
  | rom | vram | cartridgeRam | wram | oam | hram =>
      simp only [UInt16.reduceToNat] at h
      omega
  | _ => rfl

theorem affects_of_reaches {address other : UInt16} (h : IsIo address)
    (hreaches : (Target.ofAddress address).Reaches (Target.ofAddress other)) :
    Affects address other := by
  have hregister := isRegister_of_isIo h
  generalize hwritten : Target.ofAddress address = written at *
  generalize htarget : Target.ofAddress other = target at *
  cases hreaches with
  | itself hsome =>
      rw [← hwritten] at hregister hsome htarget
      obtain rfl := Target.eq_of_ofAddress_eq hregister hsome htarget
      exact .itself _
  | @count register hcounts =>
      obtain rfl := Target.ofAddress_eq_timer hwritten
      obtain rfl := Target.ofAddress_eq_timer htarget
      cases register with
      | divider => exact .divider (.inl rfl)
      | control => exact .timerControl (.inl rfl)
      | counter | modulo => cases hcounts
  | @overflow register hcounts =>
      obtain rfl := Target.ofAddress_eq_timer hwritten
      obtain rfl := Target.ofAddress_eq_requests htarget
      cases register with
      | divider => exact .divider (.inr rfl)
      | control => exact .timerControl (.inr rfl)
      | counter | modulo => cases hcounts
  | @power i hplace =>
      obtain rfl : address = 0xFF26 := UInt16.toNat_inj.mp (Target.ofAddress_eq_sound hwritten)
      have hother := Target.ofAddress_eq_sound htarget
      have hi : i.val ≤ 0x16 := hplace
      -- the switch is the last of the registers that it clears, and is named as itself
      by_cases hself : i.val = 0x16
      · obtain rfl : other = 0xFF26 := UInt16.toNat_inj.mp (hother.trans (by rw [hself]; rfl))
        exact .itself _
      · exact .soundPower (by omega) (by omega)
  | @shows register register' hshows =>
      obtain rfl := Target.ofAddress_eq_picture hwritten
      obtain rfl := Target.ofAddress_eq_picture htarget
      cases hshows with
      | line => exact .lcdc (.inr (.inl rfl))
      | mode => exact .lcdc (.inl rfl)
      | compared => exact .lyc (.inl rfl)
  | @rise register hrises =>
      obtain rfl := Target.ofAddress_eq_picture hwritten
      obtain rfl := Target.ofAddress_eq_requests htarget
      cases register with
      | lcdc => exact .lcdc (.inr (.inr rfl))
      | stat => exact .stat
      | lyc => exact .lyc (.inr rfl)
      | _ => cases hrises
  | vram i =>
      obtain rfl := Target.ofAddress_eq_picture hwritten
      have hother := Target.ofAddress_eq_vram_iff.mp htarget
      have hi : i.val < 0x2000 := i.isLt
      exact .vram (by omega) (by omega)
  | oam i =>
      obtain rfl := Target.ofAddress_eq_picture hwritten
      have hother := Target.ofAddress_eq_oam_iff.mp htarget
      have hi : i.val < 0xA0 := i.isLt
      exact .oam (by omega) (by omega)
  | copy i =>
      obtain rfl := Target.ofAddress_eq_transfer hwritten
      have hother := Target.ofAddress_eq_oam_iff.mp htarget
      have hi : i.val < 0xA0 := i.isLt
      exact .transfer (by omega) (by omega)

/-- What a write to a register does not do. -/
structure Isolated (b : Board) (address : UInt16) (after : Board) : Prop where
  reads : ∀ other, ¬ Affects address other → after.read other = b.read other
  memory : b.KeepsMemory after
  oam : address ≠ 0xFF46 → after.picture.oam = b.picture.oam
  openness : address ≠ 0xFF40 →
    after.picture.vramOpen = b.picture.vramOpen ∧ after.picture.oamOpen = b.picture.oamOpen
  /-- A bit of the request byte that was set is still set. -/
  requests : address ≠ 0xFF0F → b.read 0xFF0F &&& ~~~after.read 0xFF0F = 0

theorem openness_writeTarget (b : Board) {written : Target} (h : written ≠ .picture .lcdc)
    (address : UInt16) (value : UInt8) :
    (b.writeTarget address value written).1.picture.vramOpen = b.picture.vramOpen ∧
      (b.writeTarget address value written).1.picture.oamOpen = b.picture.oamOpen := by
  have hmode := Picture.visibleMode_of_raster (b.raster_writeTarget address value h)
  unfold Picture.vramOpen Picture.oamOpen
  rw [hmode]
  exact ⟨rfl, rfl⟩

theorem readRequests_union {c c' : InterruptController} {lines : LineSet}
    (h : c'.requested = c.requested.union lines) : c.readRequests &&& ~~~c'.readRequests = 0 := by
  unfold InterruptController.readRequests
  rw [h]
  apply UInt8.toBitVec_inj.mp
  ext i hi
  simp [LineSet.union]
  grind

/-- The law of registers, for every board, address of a register and value. Besides the register
    itself only those change that the written one affects, the memories keep their contents but for
    the sprite table in a block transfer, and no request is withdrawn but by the request byte. -/
theorem write_isolated (b : Board) {address : UInt16} (h : IsIo address) (value : UInt8) :
    b.Isolated address (b.write address value).1 := by
  have hregister := isRegister_of_isIo h
  constructor
  case reads =>
    intro other haffects
    apply readTarget_writeTarget b hregister
    exact fun hreaches => haffects (affects_of_reaches h hreaches)
  case memory => exact b.keepsMemory_writeTarget hregister address value
  case oam =>
    intro hother
    apply oam_writeTarget b hregister
    exact fun htarget => hother (Target.ofAddress_eq_transfer htarget)
  case openness =>
    intro hother
    apply openness_writeTarget
    exact fun htarget => hother (Target.ofAddress_eq_picture htarget)
  case requests =>
    intro hother
    have hrequests : ∀ b : Board, b.read 0xFF0F = b.interrupts.readRequests := read_requests
    obtain ⟨lines, hraised⟩ := b.exists_lines_writeTarget hregister
      (fun htarget => hother (Target.ofAddress_eq_requests htarget)) address value
    rw [hrequests, hrequests]
    exact readRequests_union hraised

theorem not_affects_scroll : ¬ Affects 0xFF40 0xFF43 := by
  -- addresses are numbers, not constructors, so they are named for the case split
  generalize hwritten : (0xFF40 : UInt16) = written
  generalize hother : (0xFF43 : UInt16) = other
  intro h
  cases h with
  | itself => exact absurd (hwritten.trans hother.symm) (by decide)
  | lcdc h =>
      subst hother
      revert h
      decide
  | vram low high | oam low high =>
      subst hother
      revert low high
      decide
  | _ => exact absurd hwritten (by decide)

/-- Switching the display off opens the sprite table, but changes neither its contents nor the
    scroll register nor the pending request. -/
theorem write_isolated_displayOff :
    IsIo 0xFF40 ∧ smallRamBoard.read 0xFE00 = 0xFF ∧
      (smallRamBoard.write 0xFF40 0x11).1.read 0xFE00 = 0x00 ∧
      (smallRamBoard.write 0xFF40 0x11).1.picture.oam = smallRamBoard.picture.oam ∧
      (smallRamBoard.write 0xFF40 0x11).1.read 0xFF43 = smallRamBoard.read 0xFF43 ∧
      smallRamBoard.read 0xFF0F &&& ~~~(smallRamBoard.write 0xFF40 0x11).1.read 0xFF0F = 0 := by
  have hio : IsIo 0xFF40 := .inl (by decide)
  have hisolated := write_isolated smallRamBoard hio 0x11
  have hsprite : Target.ofAddress 0xFE00 = .oam ⟨0, by decide⟩ := by decide +kernel
  have hlcdc : Target.ofAddress 0xFF40 = .picture .lcdc := by decide +kernel
  refine ⟨hio, ?_, ?_, hisolated.oam (by decide), hisolated.reads _ not_affects_scroll,
    hisolated.requests (by decide)⟩
  · unfold read
    rw [hsprite]
    rfl
  · unfold read write
    rw [hsprite, hlcdc]
    rfl

end Board

end Handheld
