/-
Module: Handheld.Proofs.Console.ShownFrame
Purpose: What a console shows is the frame that was last completed, with the lines drawn over it that
  have been drawn since. What has happened to the picture unit is told beat by beat from the acts of
  a run; a program that changes a palette shows that a frame can be seen while it is being drawn.
Main exports: Board.history, Board.replay_history, Console.history,
  Console.frame_eq_completed_iff, Console.frame_torn
-/
import Handheld.Proofs.Console.FramePace
import Handheld.Proofs.Console.Units
import Handheld.Proofs.Picture.Completion
import Handheld.Proofs.Picture.RgbImage
import Handheld.Proofs.Picture.Schedule

namespace Handheld

namespace Board

open Picture (Beat)

/-! ### The history of the unit -/

/-- Everything that has happened to the picture unit since it was new, after acts before which
    `past` has happened to it. -/
def history (past : List Beat) (b : Board) : List Act → List Beat
  | [] => past
  | .reset fill :: rest => history [] (b.reset fill) rest
  | act :: rest => history (past ++ b.beats act) (b.act act) rest

/-- The picture unit is what its history has made of it. -/
theorem replay_history {b : Board} {past : List Beat} (h : b.picture = Picture.replay past)
    (acts : List Act) : (b.actAll acts).picture = Picture.replay (b.history past acts) := by
  induction acts generalizing b past with
  | nil => exact h
  | cons act rest ih =>
      have hnext (hreset : ∀ fill, act ≠ .reset fill) :
          (b.act act).picture = Picture.replay (past ++ b.beats act) := by
        rw [picture_act (h ▸ Picture.coherent_replay past) hreset, h, Picture.replay_append]
      cases act with
      | reset fill => exact ih (Console.picture_powerOn b.cartridge.reset fill)
      | _ => exact ih (hnext fun _ => nofun)

theorem forget_not_mem_copyBeats (b : Board) (source : UInt16)
    (places : List (Fin Picture.oamSize)) : .forget ∉ b.copyBeats source places := by
  induction places generalizing b with
  | nil => exact List.not_mem_nil
  | cons i rest ih => exact List.not_mem_cons_of_ne_of_not_mem Beat.noConfusion (ih _)

/-- The mark of a completed frame is taken by nothing but the act for it. -/
theorem forget_not_mem_history {b : Board} {past : List Beat} {acts : List Act}
    (hacts : .forgetFrame ∉ acts) (hpast : .forget ∉ past) : .forget ∉ b.history past acts := by
  induction acts generalizing b past with
  | nil => exact hpast
  | cons act rest ih =>
      obtain ⟨hfirst, hrest⟩ := not_or.mp fun h => hacts (List.mem_cons.mpr h)
      have hbeats : .forget ∉ b.beats act := by
        cases act with
        | write address value =>
            unfold beats
            dsimp only
            cases Target.ofAddress address with
            | transfer => exact forget_not_mem_copyBeats _ _ _
            | vram i | oam i | picture register =>
                exact fun h => Beat.noConfusion (List.mem_singleton.mp h)
            | _ => exact List.not_mem_nil
        | picture cycles => exact fun h => Beat.noConfusion (List.eq_of_mem_replicate h)
        | forgetFrame => exact absurd rfl hfirst
        | _ => exact List.not_mem_nil
      have hboth : .forget ∉ past ++ b.beats act :=
        fun h => (List.mem_append.mp h).elim hpast hbeats
      cases act with
      | reset fill => exact ih hrest List.not_mem_nil
      | _ => exact ih hrest hboth

end Board

namespace Console

open Picture (Beat Frame Row screenHeight screenWidth rgbSize completedFrame drawnSince)

/-- Everything that events do to the picture unit, since it was new. -/
def history (c : Console) (events : List Event) : List Beat :=
  c.board.history [] (c.actsAll events)

/-- The picture unit of a console that has just been built is new, and everything that has happened
    to it later is in its history. -/
theorem picture_performAll {rom : Array UInt8} {settings : Settings} {start : Console}
    {notes : List Note} (h : powerOn rom settings = (.ok start, notes)) (events : List Event) :
    (start.performAll events).picture = Picture.replay (start.history events) := by
  have hnew : start.board.picture = Picture.replay [] := by
    unfold powerOn at h
    split at h
    · cases h
    · cases h
      exact picture_powerOn _ _
  unfold picture
  rw [board_performAll]
  exact Board.replay_history hnew _

/-- Whatever happens to a console from power-on on, a line of what it shows is the one drawn last
    since the last frame was completed, and the line of that frame if none has been drawn; before the
    first completion the completed frame is blank. So what is shown is the completed frame exactly
    while every line that has been drawn since has come out as it was, and the same is true of the
    bytes in a buffer with room for a frame. -/
theorem frame_eq_completed_iff {rom : Array UInt8} {settings : Settings} {start : Console}
    {notes : List Note} (h : powerOn rom settings = (.ok start, notes)) (events : List Event) :
    let shown := (start.performAll events).frame
    let completed := completedFrame (start.history events)
    let lines := drawnSince (start.history events)
    (∀ (y : Nat) (hy : y < screenHeight), shown.rows[y] = (lines y).getD completed.rows[y]) ∧
      (shown = completed ↔ ∀ (y : Nat) (hy : y < screenHeight) (row : Row), lines y = some row →
        row = completed.rows[y]) ∧
      ∀ buffer : List UInt8, rgbSize ≤ buffer.length →
        (shown.renderRgb buffer = completed.renderRgb buffer ↔ shown = completed) := by
  have hoverlay := Picture.overlay_replay (start.history events)
  rw [← picture_performAll h events] at hoverlay
  refine ⟨hoverlay, hoverlay.eq_iff, fun buffer hroom => ?_⟩
  exact ⟨Frame.renderRgb_injective hroom, fun hsame => by rw [hsame]⟩

end Console

/-! ### A frame seen while it is drawn -/

namespace Picture

/-- A unit with nothing in video memory and a palette that makes nothing dark, before the first
    frame is complete. What it has drawn is dark. -/
structure Dark (u : Picture) : Prop where
  lcdc : u.lcdc = 0x91
  bgp : u.bgp = 1
  vram : u.vram = Vector.replicate vramSize 0
  waiting : u.frameReady = false
  coherent : u.raster.Coherent
  drawn : ∀ (y : Nat) (hy : y < screenHeight), y < u.linesDone →
    u.frame.rows[y] = Vector.replicate screenWidth 1

variable {u : Picture}

theorem Dark.lcdOn (h : u.Dark) : u.lcdOn = true := by
  unfold Picture.lcdOn control
  rw [h.lcdc]
  decide

theorem Dark.lineShades (h : u.Dark) : u.lineShades = Vector.replicate screenWidth 1 := by
  have hsprites : u.spritesOn = false := by
    unfold spritesOn control
    rw [h.lcdc]
    decide
  have hbackground : u.backgroundOn = true := by
    unfold backgroundOn control
    rw [h.lcdc]
    decide
  have hwindow : u.windowVisible = false := by
    have hoff : u.windowOn = false := by
      unfold windowOn control
      rw [h.lcdc]
      decide
    unfold windowVisible
    rw [hoff, Bool.and_false, Bool.false_and, Bool.false_and]
  have hcolor (x : Fin screenWidth) : u.backgroundColor x = 0 := by
    unfold backgroundColor mapColor rowColor
    simp only [hbackground, hwindow, h.vram, Vector.getElem_replicate, tileColor]
    simp [colorOf]
  have hshade : u.backgroundShade 0 = 1 := by
    unfold backgroundShade
    rw [if_pos hbackground, h.bgp]
    decide
  apply Vector.ext
  intro x hx
  unfold Picture.lineShades
  simp only [hsprites, Vector.getElem_ofFn, hcolor, Vector.getElem_replicate, mixPixel, hshade,
    Bool.false_eq_true, if_false, Fin.getElem_fin]

theorem Moves.contents_eq {u' : Picture} {signals : List Signal} (h : Moves u u' signals) :
    u'.lcdc = u.lcdc ∧ u'.bgp = u.bgp ∧ u'.vram = u.vram := by
  cases h <;> exact ⟨rfl, rfl, rfl⟩

/-- A dot on the screen draws what it draws dark. -/
theorem Dark.tick (h : u.Dark) (hscreen : u.position + 1 < vblankPosition) :
    u.tick.1.Dark ∧ u.tick.1.position = u.position + 1 := by
  have hon := h.lcdOn
  have hu := h.coherent
  have hpass : u.position + 1 < cyclesPerFrame := Nat.lt_trans hscreen (by decide)
  have hposition : u.tick.1.position = u.position + 1 := by
    rw [position_tick hon hu, Nat.mod_eq_of_lt hpass]
  obtain ⟨hlcdc, hbgp, hvram⟩ := (moves_nextDot hon hu).contents_eq
  refine ⟨⟨hlcdc.trans h.lcdc, hbgp.trans h.bgp, hvram.trans h.vram, ?_, coherent_tick hon hu, ?_⟩,
    hposition⟩
  · by_contra hset
    rcases (frameReady_tick hon hu).mp ((Bool.not_eq_false _).mp hset) with hbefore | hat
    · exact Bool.false_ne_true (h.waiting.symm.trans hbefore)
    · omega
  · intro y hy hdone
    have hframe := frame_play_eq hu .dot
    rw [play, advance_one hon] at hframe
    rw [hframe]
    unfold drawn?
    rcases linesDone_tick hon hu hpass with ⟨hend, hcount⟩ | ⟨hend, hcount⟩
    · rw [if_pos ⟨hon, hend⟩]
      dsimp only
      by_cases hline : u.ly.toNat = y
      · subst hline
        rw [getElem_setRow_self u.frame hy, h.lineShades]
      · rw [getElem_setRow_ne u.frame hy _ hline]
        rw [hcount, linesDone_of_atLineEnd hend] at hdone
        refine h.drawn y hy ?_
        rw [linesDone_of_atLineEnd hend]
        omega
    · rw [if_neg fun hboth => hend hboth.2]
      exact h.drawn y hy (hcount ▸ hdone)

theorem Dark.advance (h : u.Dark) {cycles : Nat} (hscreen : u.position + cycles < vblankPosition) :
    (u.advance cycles).1.Dark ∧ (u.advance cycles).1.position = u.position + cycles := by
  rw [advance_eq_playAll h.coherent]
  induction cycles generalizing u with
  | zero => exact ⟨h, (Nat.add_zero _).symm⟩
  | succ cycles ih =>
      obtain ⟨hnext, hposition⟩ := h.tick (by omega)
      obtain ⟨hlast, hsum⟩ := ih hnext (by omega)
      have hplay : u.playAll (List.replicate (cycles + 1) .dot) =
          u.tick.1.playAll (List.replicate cycles .dot) := by
        rw [← advance_one h.lcdOn]
        rfl
      rw [hplay]
      exact ⟨hlast, by omega⟩

/-- Behind the first line of the screen that line has been drawn. -/
theorem Dark.first_row (h : u.Dark) (hposition : dotsPerLine ≤ u.position) :
    u.frame.rows[0] = Vector.replicate screenWidth 1 := by
  refine h.drawn 0 (by decide) ?_
  have hdot := dot_lt h.lcdOn h.coherent
  have hline : 0 < u.ly.toNat := by
    unfold position at hposition
    by_contra hzero
    rw [Nat.eq_zero_of_not_pos hzero] at hposition
    omega
  unfold linesDone
  cases u.mode with
  | oamScan | transfer => exact hline
  | hblank => exact Nat.succ_pos _
  | vblank => exact Nat.zero_lt_of_lt (by decide : 1 < screenHeight)

end Picture

namespace Console

open Picture (Beat Frame Row screenHeight screenWidth completedFrame drawnSince)

/-- The address of the background palette. -/
def bgpAddress : UInt16 := 0xFF47

theorem write_bgp (b : Board) (value : UInt8) :
    b.write bgpAddress value = b.writePicture .bgp value := by
  have htarget : Target.ofAddress bgpAddress = .picture .bgp := by decide +kernel
  unfold Board.write
  rw [htarget]
  rfl

/-- A program at the entry point that stores A to the background palette and sleeps. -/
def dimmerByte : Nat → UInt8
  | 0x100 => 0xE0
  | 0x101 => 0x47
  | 0x102 => 0x76
  | _ => 0

/-- The image of a cartridge with that program and no more than a header. -/
def dimmerRom : Array UInt8 :=
  Array.ofFn fun i : Fin Cartridge.headerEnd => dimmerByte i

theorem getD_dimmerRom {i : Nat} (h : i < Cartridge.headerEnd) (other : UInt8) :
    dimmerRom.getD i other = dimmerByte i := by
  simp [dimmerRom, Array.getD, h]

/-- A step in which the processor sleeps on lets four dots pass. -/
theorem Sleeping.picture_step {c : Console} (h : c.Sleeping) :
    c.step.2.picture = (c.picture.advance 4).1 := by
  have hcore : c.core.step = (.ok ⟨4, .idle⟩, c.core) := by
    rw [Core.step_awake h.asleep.fault h.asleep.stopped, Core.stepAwake_eq,
      Core.poll_of_disabled h.enable]
    exact if_pos h.asleep.halted
  rw [picture_step_of_ok h.step.1, hcore]
  rfl

/-- The screen darkens while the processor sleeps. -/
theorem Sleeping.after_dark {c : Console} (h : c.Sleeping) (hdark : c.picture.Dark) {n : Nat}
    (hscreen : c.picture.position + 4 * n < Picture.vblankPosition) :
    (c.after n).Sleeping ∧ (c.after n).picture.Dark ∧
      (c.after n).picture.position = c.picture.position + 4 * n := by
  induction n with
  | zero =>
      rw [Nat.mul_zero, Nat.add_zero]
      exact ⟨h, hdark, rfl⟩
  | succ n ih =>
      obtain ⟨hasleep, hdark, hposition⟩ := ih (by omega)
      have hnext : (c.after (n + 1)).picture = ((c.after n).picture.advance 4).1 :=
        hasleep.picture_step
      have hbelow : (c.after n).picture.position + 4 < Picture.vblankPosition := by omega
      obtain ⟨hlast, hsum⟩ := hdark.advance hbelow
      rw [hnext]
      exact ⟨hasleep.step.2.2, hlast, by omega⟩

/-- Stepping is what a list of steps does. -/
theorem performAll_steps (c : Console) (n : Nat) :
    c.performAll (List.replicate n .step) = c.after n := by
  induction n generalizing c with
  | zero => rfl
  | succ n ih =>
      rw [after_succ, ← ih]
      rfl

/-- No step takes the mark of a completed frame. -/
theorem forget_not_mem_history_steps (c : Console) (n : Nat) :
    .forget ∉ c.history (List.replicate n .step) := by
  have hnone : ∀ act ∈ c.actsAll (List.replicate n .step), act ≠ .forgetFrame := by
    induction n generalizing c with
    | zero => exact List.forall_mem_nil _
    | succ n ih =>
        refine List.forall_mem_append.mpr ⟨?_, ih (c.perform .step)⟩
        have hcore : ∀ act ∈ c.core.acts, act ≠ .forgetFrame := by
          rintro act hact rfl
          exact Bool.false_ne_true (Core.isProcessor_of_mem_acts hact)
        unfold acts
        dsimp only
        split
        · exact hcore
        · refine List.forall_mem_append.mpr ⟨hcore, ?_⟩
          simp
  exact Board.forget_not_mem_history (fun h => hnone _ h rfl) List.not_mem_nil

/-- The first instruction makes the palette dark. -/
theorem step_dim {bus : NotedBoard} (settings : Settings) (hopcode : bus.board.read 0x100 = 0xE0)
    (hvalue : bus.board.read 0x101 = 0x47) (henable : bus.board.interrupts.enable = 0) :
    ∃ next : NotedBoard, next.board.steady = bus.board.steady ∧
      next.board.picture = ({ bus.board.picture with bgp := 1 }.advance 12).1 ∧
      Console.step ⟨⟨.boot, bus⟩, settings⟩ =
        (.ok 12, ⟨⟨{ Processor.boot with regs.pc := 0x102 }, next⟩, settings⟩) := by
  have hdecode : decode (bus.board.read 0x100) = .withByte fun place => .storeA (.high place) := by
    rw [hopcode]
    rfl
  have hcore := Core.step_withByte (m := ⟨.boot, bus⟩) rfl rfl rfl rfl henable hdecode
  have hplace : 0xFF00 ||| UInt8.toUInt16 0x47 = bgpAddress := by decide
  have hacted : Core.execute ⟨{ Processor.boot with regs.pc := 0x102 }, bus⟩
      (.storeA (.high 0x47)) =
        (12, ⟨{ Processor.boot with regs.pc := 0x102 }, Bus.write bus bgpAddress 1⟩) := by
    rw [← hplace]
    rfl
  have hwrite : (Bus.write bus bgpAddress 1).board =
      (bus.board.writePicture .bgp 1).1 := by
    rw [NotedBoard.board_write, write_bgp]
  refine ⟨(Bus.write bus bgpAddress 1).advance 12, ?_, ?_, ?_⟩
  · rw [NotedBoard.board_advance, Board.steady_advance, hwrite, Board.steady_writePicture]
  · rw [NotedBoard.board_advance, Board.picture_advance, hwrite, Board.picture_writePicture]
    rfl
  · have hnext : Core.step ⟨.boot, bus⟩ = (.ok ⟨12, .executed (.storeA (.high 0x47))⟩,
        ⟨{ Processor.boot with regs.pc := 0x102 }, Bus.write bus bgpAddress 1⟩) := by
      rw [hcore]
      change Core.finish (.ok (.storeA (.high (bus.board.read 0x101))))
        ⟨{ Processor.boot with regs.pc := 0x102 }, bus⟩ = _
      rw [hvalue, Core.finish, hacted]
      rfl
    rw [step_eq, hnext]

/-- The second one puts the processor to sleep. -/
theorem step_doze {bus : NotedBoard} (settings : Settings)
    (hopcode : bus.board.read 0x102 = 0x76) (henable : bus.board.interrupts.enable = 0)
    (hdark : bus.board.picture.Dark) :
    let c : Console := ⟨⟨{ Processor.boot with regs.pc := 0x102 }, bus⟩, settings⟩
    c.step.2.Sleeping ∧ c.step.2.picture = (bus.board.picture.advance 4).1 := by
  intro c
  have hdecode : decode (bus.board.read 0x102) = .complete .halt := by
    rw [hopcode]
    rfl
  have hcore : c.core.step = (.ok ⟨4, .executed .halt⟩,
      ⟨{ Processor.boot with regs.pc := 0x103, halted := true }, bus⟩) := by
    have hhalt := Core.halt_of_disabled
      (m := ⟨{ Processor.boot with regs.pc := 0x103 }, bus⟩) henable
    have hacted : Core.execute ⟨{ Processor.boot with regs.pc := 0x103 }, bus⟩ .halt =
        (4, ⟨{ Processor.boot with regs.pc := 0x103, halted := true }, bus⟩) :=
      congrArg (Prod.mk 4) hhalt
    rw [Core.step_complete (m := c.core) rfl rfl rfl rfl henable hdecode]
    change Core.finish (.ok .halt) ⟨{ Processor.boot with regs.pc := 0x103 }, bus⟩ = _
    rw [Core.finish, hacted]
    rfl
  obtain ⟨hok, -, hsleeping⟩ :=
    sleeping_step (c := c) hcore ⟨rfl, rfl, rfl⟩ henable hdark.lcdOn hdark.coherent
  refine ⟨hsleeping, ?_⟩
  rw [picture_step_of_ok hok, hcore]

/-- A console with that program in it can be built. After two steps it sleeps, and the screen is
    about to darken. -/
theorem powerOn_dimmerRom : ∃ c notes, powerOn dimmerRom {} = (.ok c, notes) ∧
    (c.after 2).Sleeping ∧ (c.after 2).picture.Dark ∧ (c.after 2).picture.position = 16 := by
  have hsize : ¬ dimmerRom.size < Cartridge.headerEnd := by simp [dimmerRom]
  obtain ⟨c, notes, h, hcpu, hpicture, hrom, hbanking, henable⟩ :=
    powerOn_of_plain hsize (getD_dimmerRom (by decide) 0)
  refine ⟨c, notes, h, ?_⟩
  obtain ⟨⟨cpu, bus⟩, settings⟩ := c
  obtain rfl : cpu = .boot := hcpu
  have hbyte {next : NotedBoard} (hsteady : next.board.steady = bus.board.steady)
      {address : UInt16} (hlow : address.toNat < Cartridge.headerEnd) :
      next.board.read address = dimmerByte address.toNat := by
    have hcartridge : next.board.cartridge = bus.board.cartridge := congrArg Prod.fst hsteady
    have hrom' : next.board.cartridge.rom = dimmerRom := by
      rw [hcartridge]
      exact hrom
    have hbanking' : next.board.cartridge.banking = .plain := by
      rw [hcartridge]
      exact hbanking
    have hlow' : address.toNat < 0x8000 := Nat.lt_trans hlow (by decide)
    have hread := read_plain (c := ⟨⟨.boot, next⟩, settings⟩) hbanking' hlow'
    change next.board.read address = next.board.cartridge.rom.getD _ _ at hread
    rw [hread, hrom']
    exact getD_dimmerRom hlow _
  obtain ⟨next, hsteady, hnext, hfirst⟩ := step_dim settings
    (hbyte rfl (by decide)) (hbyte rfl (by decide)) henable
  have hunit : bus.board.picture = {} := hpicture
  have hnew : Picture.Dark { ({} : Picture) with bgp := 1 } :=
    ⟨rfl, rfl, rfl, rfl, Picture.coherent_powerOn, fun y _ hdone => absurd hdone (Nat.not_lt_zero y)⟩
  rw [hunit] at hnext
  have hscreen : Picture.position { ({} : Picture) with bgp := 1 } + 12 < Picture.vblankPosition := by
    decide
  obtain ⟨hdark, hposition⟩ := hnew.advance hscreen
  rw [← hnext] at hdark hposition
  have henable' : next.board.interrupts.enable = 0 := (congrArg Prod.snd hsteady).trans henable
  obtain ⟨hsleeping, hsecond⟩ :=
    step_doze settings (hbyte hsteady (by decide)) henable' hdark
  have hstart : Picture.position { ({} : Picture) with bgp := 1 } = 0 := rfl
  rw [hstart] at hposition
  have hbelow : next.board.picture.position + 4 < Picture.vblankPosition := by
    rw [hposition]
    decide
  obtain ⟨hlast, hsum⟩ := hdark.advance hbelow
  have hafter : Console.after ⟨⟨.boot, bus⟩, settings⟩ 2 =
      (Console.step ⟨⟨{ Processor.boot with regs.pc := 0x102 }, next⟩, settings⟩).2 := by
    rw [Console.after, Console.after, Console.after, hfirst]
  rw [hafter, hsecond]
  exact ⟨hsleeping, hlast, by rw [hsum, hposition]⟩

/-- After a line's worth of cycles the first line is dark, and no frame has been completed. -/
theorem after_dimmerRom : ∃ c notes, powerOn dimmerRom {} = (.ok c, notes) ∧
    (c.performAll (List.replicate 112 .step)).frame.rows[0] = Vector.replicate screenWidth 1 ∧
      completedFrame (c.history (List.replicate 112 .step)) = .blank := by
  obtain ⟨c, notes, h, hsleeping, hdark, hposition⟩ := powerOn_dimmerRom
  obtain ⟨-, hlast, hsum⟩ := hsleeping.after_dark hdark (n := 110) (by rw [hposition]; decide)
  rw [hposition] at hsum
  have hafter : c.performAll (List.replicate 112 .step) = (c.after 2).after 110 := by
    rw [performAll_steps, show 112 = 110 + 1 + 1 from rfl, after_succ, after_succ]
    rfl
  -- with a name for the console nothing tries to run it
  generalize (c.after 2).after 110 = last at hlast hsum hafter
  refine ⟨c, notes, h, ?_, ?_⟩
  · rw [hafter]
    have hpast : Picture.dotsPerLine ≤ 16 + 4 * 110 := by decide
    rw [← hsum] at hpast
    exact hlast.first_row hpast
  · have hunmarked := hlast.waiting
    rw [← hafter, picture_performAll h] at hunmarked
    exact Picture.followFrame_of_unmarked (forget_not_mem_history_steps c 112)
      Picture.coherent_powerOn hunmarked _ _

theorem dark_ne_blank :
    (Vector.replicate screenWidth 1 : Row) ≠ Frame.blank.rows[0] := by
  intro heq
  simp only [Frame.blank, Vector.getElem_replicate] at heq
  rcases Vector.replicate_inj.mp heq with hwidth | hshade
  · exact absurd hwidth (by decide)
  · exact absurd hshade (by decide)

/-- So what is shown need not be the frame that was last completed. -/
theorem frame_torn : ∃ c notes, powerOn dimmerRom {} = (.ok c, notes) ∧
    (c.performAll (List.replicate 112 .step)).frame ≠
      completedFrame (c.history (List.replicate 112 .step)) := by
  obtain ⟨c, notes, h, hdark, hblank⟩ := after_dimmerRom
  refine ⟨c, notes, h, ?_⟩
  intro hsame
  rw [hsame, hblank] at hdark
  exact dark_ne_blank hdark.symm

/-- The line in which the two differ is the one that has been drawn since. -/
theorem frame_eq_completed_iff_dimmer : ∃ c notes, powerOn dimmerRom {} = (.ok c, notes) ∧
    drawnSince (c.history (List.replicate 112 .step)) 0 = some (Vector.replicate screenWidth 1) ∧
      completedFrame (c.history (List.replicate 112 .step)) = .blank := by
  obtain ⟨c, notes, h, hdark, hblank⟩ := after_dimmerRom
  refine ⟨c, notes, h, ?_, hblank⟩
  have hline := (frame_eq_completed_iff h (List.replicate 112 .step)).1 0 (by decide)
  rw [hdark, hblank] at hline
  cases hdrawn : drawnSince (c.history (List.replicate 112 .step)) 0 with
  | none =>
      rw [hdrawn] at hline
      exact absurd hline dark_ne_blank
  | some row =>
      rw [hdrawn] at hline
      exact congrArg some hline.symm

end Console

end Handheld
