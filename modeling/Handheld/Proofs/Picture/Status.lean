/-
Module: Handheld.Proofs.Picture.Status
Purpose: The status interrupt. The latch behind it is the OR of the selected sources after every dot
  and every write. An interrupt is requested when that OR rises, and by one thing more: the look-up
  source also fires at the start of V-blank, a line that has no look-up.
Main exports: Picture.Reachable, StatSource, StatDue, EntersVBlank, Synced, statLine_follows
-/
import Handheld.Proofs.Picture.Pace

namespace Handheld.Picture

/-! ### Reachable units -/

/-- The units that can come about: cycles pass by any number, and between them the processor and
    block transfers do what they like. -/
inductive Reachable : Picture → Prop where
  | powerOn : Reachable {}
  | advance {u : Picture} (h : Reachable u) (cycles : Nat) : Reachable (u.advance cycles).1
  | play {u : Picture} (h : Reachable u) (beat : Beat) : Reachable (u.play beat).1

variable {u : Picture}

/-- Every reachable unit has a history of single beats. -/
theorem Reachable.exists_replay (h : Reachable u) : ∃ history, u = replay history := by
  induction h with
  | powerOn => exact ⟨[], rfl⟩
  | advance h cycles ih =>
      rcases ih with ⟨history, rfl⟩
      refine ⟨history ++ List.replicate cycles .dot, ?_⟩
      rw [advance_eq_playAll (coherent_replay history)]
      exact (playAll_append {} history _).symm
  | play h beat ih =>
      rcases ih with ⟨history, rfl⟩
      exact ⟨history ++ [beat], (playAll_concat {} history beat).symm⟩

theorem Reachable.coherent (h : Reachable u) : u.raster.Coherent := by
  rcases h.exists_replay with ⟨history, rfl⟩
  exact coherent_replay history

theorem Reachable.playAll (h : Reachable u) (beats : List Beat) : Reachable (u.playAll beats) := by
  induction beats generalizing u with
  | nil => exact h
  | cons beat rest ih => exact ih (.play h beat)

theorem keeps_playAll {P : Picture → Prop}
    (hplay : ∀ (u : Picture) (beat : Beat), u.raster.Coherent → P u → P (u.play beat).1)
    (beats : List Beat) (hu : u.raster.Coherent) (h : P u) : P (u.playAll beats) := by
  induction beats generalizing u with
  | nil => exact h
  | cons beat rest ih => exact ih (coherent_play hu beat) (hplay u beat hu h)

/-- What holds at power-on and is kept by every beat holds of every reachable unit. -/
theorem Reachable.keeps {P : Picture → Prop} (h : Reachable u) (hstart : P {})
    (hplay : ∀ (u : Picture) (beat : Beat), u.raster.Coherent → P u → P (u.play beat).1) : P u := by
  rcases h.exists_replay with ⟨history, rfl⟩
  exact keeps_playAll hplay history coherent_powerOn hstart

/-! ### The sources -/

/-- The four sources of the status interrupt. -/
inductive StatSource where
  /-- The line is the one compared with. -/
  | lineCompare
  | oamScan
  | vblank
  | hblank
deriving DecidableEq

/-- The bit of STAT that selects a source. -/
def StatSource.mask : StatSource → UInt8
  | .lineCompare => 0x40
  | .oamScan => 0x20
  | .vblank => 0x10
  | .hblank => 0x08

/-- A source is selected. -/
def Selects (u : Picture) (source : StatSource) : Prop :=
  u.statSelect &&& source.mask ≠ 0

/-- A source is active. -/
def StatSource.Active (u : Picture) : StatSource → Prop
  | .lineCompare => u.ly = u.lyc
  | .oamScan => u.mode = .oamScan
  | .vblank => u.mode = .vblank
  | .hblank => u.mode = .hblank

/-- The display is on, and one of the selected sources is active. -/
def StatDue (u : Picture) : Prop :=
  u.lcdOn = true ∧ ∃ source, u.Selects source ∧ source.Active u

/-- The latch says what the sources say. -/
def Synced (u : Picture) : Prop :=
  u.statLine = true ↔ u.StatDue

/-- The beat is a dot that takes the raster to the first line below the screen. -/
def EntersVBlank (u : Picture) (beat : Beat) : Prop :=
  beat = .dot ∧ u.ly.toNat ≠ screenHeight ∧ (u.play beat).1.ly.toNat = screenHeight

theorem statActive_iff (u : Picture) :
    u.statActive = true ↔ ∃ source, u.Selects source ∧ source.Active u := by
  simp only [statActive, Bool.or_eq_true, Bool.and_eq_true, bne_iff_ne, beq_iff_eq]
  constructor
  · rintro (((h | h) | h) | h)
    · exact ⟨.lineCompare, h⟩
    · exact ⟨.oamScan, h⟩
    · exact ⟨.vblank, h⟩
    · exact ⟨.hblank, h⟩
  · rintro ⟨source, h⟩
    cases source with
    | lineCompare => exact .inl (.inl (.inl h))
    | oamScan => exact .inl (.inl (.inr h))
    | vblank => exact .inl (.inr h)
    | hblank => exact .inr h

theorem statDue_iff (u : Picture) : u.StatDue ↔ (u.lcdOn && u.statActive) = true := by
  rw [Bool.and_eq_true, statActive_iff]
  rfl

instance (u : Picture) : Decidable u.StatDue :=
  decidable_of_iff' _ u.statDue_iff

theorem not_statDue_of_off (hoff : u.lcdOn = false) : ¬ u.StatDue := by
  rintro ⟨hon, -⟩
  rw [hoff] at hon
  cases hon

theorem Synced.statLine_eq_false_iff (h : u.Synced) : u.statLine = false ↔ ¬ u.StatDue := by
  rw [← Bool.not_eq_true]
  exact not_congr h

/-! ### Bringing the latch up to date -/

theorem synced_updateStat (u : Picture) : u.updateStat.1.Synced := by
  have hlatch : u.updateStat.1.statLine = (u.lcdOn && u.statActive) := rfl
  unfold Synced
  rw [hlatch, ← statDue_iff]
  rfl

theorem request_updateStat (u : Picture) :
    .request .lcdStat ∈ u.updateStat.2 ↔ u.statLine = false ∧ u.StatDue := by
  rw [statDue_iff]
  unfold updateStat
  cases u.lcdOn && u.statActive <;> cases u.statLine <;> simp

/-! ### A dot -/

variable {u' : Picture} {signals : List Signal}

theorem Moves.statLine_eq (h : Moves u u' signals) : u'.statLine = u.statLine := by
  cases h <;> rfl

/-- The raster gives signals at the start of V-blank only. -/
theorem Moves.signals_eq (h : Moves u u' signals) :
    (.request .vblank ∉ signals ∧ signals = []) ∨
      (.request .vblank ∈ signals ∧ signals = ({ u with dot := 0 } : Picture).enterVBlank.2) := by
  cases h with
  | vblank hmode hdot hly => exact .inr ⟨List.mem_cons_self, rfl⟩
  | _ => exact .inl ⟨List.not_mem_nil, rfl⟩

theorem request_enterVBlank (u : Picture) :
    .request .lcdStat ∈ u.enterVBlank.2 ↔ u.Selects .oamScan ∧ u.statLine = false := by
  unfold enterVBlank Selects StatSource.mask
  cases u.statLine <;> simp

/-- V-blank begins where its position is reached. -/
theorem Moves.enters_iff (h : Moves u u' signals) (hon : u.lcdOn = true) (hon' : u'.lcdOn = true)
    (hu : u.raster.Coherent) :
    u.ly.toNat ≠ screenHeight ∧ u'.ly.toNat = screenHeight ↔ u'.position = vblankPosition := by
  have hmoved := h.position_eq hon hu
  have hdot := dot_lt hon hu
  have hdot' := dot_lt hon' (h.coherent hon hu)
  have hlt := position_lt hon hu
  unfold position vblankPosition at *
  simp only [screenHeight, dotsPerLine, cyclesPerFrame, linesPerFrame] at *
  omega

theorem entersVBlank_dot_iff (hon : u.lcdOn = true) (hu : u.raster.Coherent) :
    u.EntersVBlank .dot ↔ u.tick.1.position = vblankPosition := by
  have hon' : u.nextDot.1.lcdOn = true := (lcdOn_tick u).trans hon
  unfold EntersVBlank
  rw [play, advance_one hon, and_iff_right rfl]
  exact (moves_nextDot hon hu).enters_iff hon hon' hu

theorem request_lcdStat_nextDot (hon : u.lcdOn = true) (hu : u.raster.Coherent) :
    .request .lcdStat ∈ u.nextDot.2 ↔
      u.EntersVBlank .dot ∧ u.Selects .oamScan ∧ u.statLine = false := by
  have hmoves := moves_nextDot hon hu
  have hposition : u.tick.1.position = u.nextDot.1.position := rfl
  rw [entersVBlank_dot_iff hon hu, hposition]
  rcases hmoves.vblank_or_quiet hon hu with ⟨hat, hmem, -⟩ | ⟨hoff, hmem, -⟩
  · rcases hmoves.signals_eq with ⟨hnone, -⟩ | ⟨-, hsignals⟩
    · exact absurd hmem hnone
    · rw [hsignals, request_enterVBlank]
      exact (and_iff_right hat).symm
  · rcases hmoves.signals_eq with ⟨-, hsignals⟩ | ⟨hsome, -⟩
    · rw [hsignals]
      simp [hoff]
    · exact absurd hsome hmem

theorem request_lcdStat_tick (hon : u.lcdOn = true) (hu : u.raster.Coherent) (hsync : u.Synced) :
    .request .lcdStat ∈ u.tick.2 ↔ (¬ u.StatDue ∧ u.tick.1.StatDue) ∨
      (u.EntersVBlank .dot ∧ u.Selects .oamScan ∧ ¬ u.StatDue) := by
  have hsignals : u.tick.2 = u.nextDot.2 ++ u.nextDot.1.updateStat.2 := rfl
  have hlatch := (moves_nextDot hon hu).statLine_eq
  rw [hsignals, List.mem_append, request_updateStat, request_lcdStat_nextDot hon hu, hlatch,
    hsync.statLine_eq_false_iff]
  exact or_comm

/-! ### Between dots -/

/-- What a beat other than a dot of a lit display does to the latch. -/
inductive StatEffect (u u' : Picture) (signals : List Signal) : Prop where
  /-- Neither the latch nor the sources are touched. -/
  | left (hlatch : u'.statLine = u.statLine) (hdue : u'.StatDue ↔ u.StatDue)
      (hnone : .request .lcdStat ∉ signals)
  /-- The sources change, and the latch is brought up to date. -/
  | updated (v : Picture) (hlatch : v.statLine = u.statLine) (hnext : u' = v.updateStat.1)
      (hsignals : .request .lcdStat ∈ signals ↔ .request .lcdStat ∈ v.updateStat.2)
  /-- The display is switched off. -/
  | dark (hlatch : u'.statLine = false) (hoff : u'.lcdOn = false)
      (hnone : .request .lcdStat ∉ signals)

theorem statEffect_setLcd {v : Picture} (hlatch : v.statLine = u.statLine) :
    StatEffect u (v.setLcd v.lcdOn).1 (v.setLcd v.lcdOn).2 := by
  cases hon : v.lcdOn with
  | false =>
      have hnone : .request .lcdStat ∉ (v.setLcd false).2 := by simp [setLcd]
      exact .dark rfl hon hnone
  | true =>
      let top : Picture :=
        { v with ly := 0, dot := 0, mode := .oamScan, windowLine := 0, offCycles := 0 }
      have hsignals : (v.setLcd true).2 = .lcdOn :: top.updateStat.2 := rfl
      refine .updated top hlatch rfl ?_
      rw [hsignals]
      simp

theorem statEffect_writeLcdc (u : Picture) (value : UInt8) :
    StatEffect u (u.writeLcdc value).1 (u.writeLcdc value).2 := by
  unfold writeLcdc
  dsimp only
  split
  · next hsame =>
    refine .left rfl ?_ List.not_mem_nil
    unfold StatDue
    rw [← hsame]
    rfl
  · exact statEffect_setLcd rfl

theorem statEffect_play {beat : Beat} (h : beat = .dot → u.lcdOn = false) :
    StatEffect u (u.play beat).1 (u.play beat).2 := by
  cases beat with
  | dot =>
      rw [play, advance_of_off (h rfl)]
      exact .left rfl Iff.rfl List.not_mem_nil
  | write register value =>
      cases register with
      | lcdc => exact statEffect_writeLcdc u value
      | stat => exact .updated { u with statSelect := value &&& 0x78 } rfl rfl Iff.rfl
      | lyc => exact .updated { u with lyc := value } rfl rfl Iff.rfl
      | _ => exact .left rfl Iff.rfl List.not_mem_nil
  | writeVram i value =>
      simp only [play, writeVram]
      split <;> exact .left rfl Iff.rfl List.not_mem_nil
  | writeOam i value =>
      simp only [play, writeOam]
      split <;> exact .left rfl Iff.rfl List.not_mem_nil
  | _ => exact .left rfl Iff.rfl List.not_mem_nil

theorem StatEffect.synced (h : StatEffect u u' signals) (hsync : u.Synced) : u'.Synced := by
  cases h with
  | left hlatch hdue hnone =>
      unfold Synced
      rw [hlatch, hdue]
      exact hsync
  | updated v hlatch hnext hsignals =>
      rw [hnext]
      exact synced_updateStat v
  | dark hlatch hoff hnone =>
      unfold Synced
      rw [hlatch]
      exact ⟨fun h => absurd h Bool.false_ne_true, fun h => absurd h (not_statDue_of_off hoff)⟩

theorem StatEffect.request_iff (h : StatEffect u u' signals) (hsync : u.Synced) :
    .request .lcdStat ∈ signals ↔ ¬ u.StatDue ∧ u'.StatDue := by
  cases h with
  | left hlatch hdue hnone =>
      rw [hdue]
      exact ⟨fun hmem => absurd hmem hnone, fun hboth => absurd hboth.2 hboth.1⟩
  | updated v hlatch hnext hsignals =>
      rw [hsignals, request_updateStat, hlatch, hsync.statLine_eq_false_iff, hnext]
      exact Iff.rfl
  | dark hlatch hoff hnone =>
      have hdark := not_statDue_of_off hoff
      exact ⟨fun hmem => absurd hmem hnone, fun hboth => absurd hboth.2 hdark⟩

/-! ### Every beat -/

theorem synced_play (beat : Beat) (hsync : u.Synced) : (u.play beat).1.Synced := by
  by_cases hlit : beat = .dot ∧ u.lcdOn = true
  · rcases hlit with ⟨rfl, hon⟩
    rw [play, advance_one hon]
    exact synced_updateStat u.nextDot.1
  · have heffect : StatEffect u (u.play beat).1 (u.play beat).2 := by
      apply statEffect_play
      intro hdot
      exact (Bool.not_eq_true _).mp fun hon => hlit ⟨hdot, hon⟩
    exact heffect.synced hsync

theorem synced_of_reachable (h : Reachable u) : u.Synced := by
  apply h.keeps
  · have hdark : ¬ ({} : Picture).StatDue := by decide
    exact ⟨fun h => absurd h Bool.false_ne_true, fun h => absurd h hdark⟩
  · intro u beat _ hsync
    exact synced_play beat hsync

/-- Without a dot of the lit display, V-blank does not begin. -/
theorem not_entersVBlank {beat : Beat} (h : beat = .dot → u.lcdOn = false) :
    ¬ u.EntersVBlank beat := by
  rintro ⟨rfl, hbefore, hafter⟩
  rw [play, advance_of_off (h rfl)] at hafter
  exact hbefore hafter

/-- The status interrupt, for every unit that can come about and everything that can happen to
    it: the latch is the OR of the selected sources, and a beat requests the interrupt exactly
    if it raises that OR, or begins V-blank with the look-up source selected and the OR not
    raised before. -/
theorem statLine_follows (h : Reachable u) :
    (u.statLine = true ↔ u.StatDue) ∧
      ∀ beat : Beat, .request .lcdStat ∈ (u.play beat).2 ↔
        (¬ u.StatDue ∧ (u.play beat).1.StatDue) ∨
          (u.EntersVBlank beat ∧ u.Selects .oamScan ∧ ¬ u.StatDue) := by
  have hsync := synced_of_reachable h
  refine ⟨hsync, ?_⟩
  intro beat
  by_cases hlit : beat = .dot ∧ u.lcdOn = true
  · rcases hlit with ⟨rfl, hon⟩
    have hplay : u.play .dot = u.tick := advance_one hon
    rw [hplay]
    exact request_lcdStat_tick hon h.coherent hsync
  · have hother : beat = .dot → u.lcdOn = false := by
      intro hdot
      exact (Bool.not_eq_true _).mp fun hon => hlit ⟨hdot, hon⟩
    rw [(statEffect_play hother).request_iff hsync, or_iff_left]
    rintro ⟨henters, -⟩
    exact not_entersVBlank hother henters

/-- During a look-up, selecting the look-up source requests the interrupt, and selecting a second
    active source after it does not. -/
theorem statLine_follows_selection :
    (Reachable {} ∧ .request .lcdStat ∈ (({} : Picture).play (.write .stat 0x20)).2) ∧
      (Reachable (({} : Picture).play (.write .stat 0x20)).1 ∧
        .request .lcdStat ∉ ((({} : Picture).play (.write .stat 0x20)).1.play (.write .stat 0x60)).2) := by
  have hfirst : Reachable (({} : Picture).play (.write .stat 0x20)).1 := .play .powerOn _
  refine ⟨⟨.powerOn, ?_⟩, hfirst, ?_⟩
  · apply ((statLine_follows .powerOn).2 (.write .stat 0x20)).mpr
    left
    decide
  · rw [(statLine_follows hfirst).2 (.write .stat 0x60)]
    have hdue : (({} : Picture).play (.write .stat 0x20)).1.StatDue := by decide
    rintro (⟨hnone, -⟩ | ⟨-, -, hnone⟩)
    · exact hnone hdue
    · exact hnone hdue

end Handheld.Picture
