/-
Module: Handheld.Proofs.Board.StatusCount
Purpose: How often a frame requests the status interrupt if one source alone is selected. What a
  source has requested since the top of the frame can be told from where the raster is, so that the
  length of the lines, and with it all that decides about it, makes no difference.
Main exports: Picture.statDots, Picture.SelectsOnly, StatSource.perFrame, StatSource.passed,
  Picture.statDots_of_frame
-/
import Handheld.Proofs.Board.TimerCount
import Handheld.Proofs.Picture.StaticScene

namespace Handheld

/-! ### Requests in the controller -/

namespace LineSet

theorem contains_diff_only (s : LineSet) (line : Interrupt) :
    (s.diff (only line)).contains line = false := by
  unfold contains diff only
  rw [UInt8.and_assoc, UInt8.not_and_self, UInt8.and_zero]
  rfl

end LineSet

namespace Picture

theorem contains_linesOf (signals : List Signal) (line : Interrupt) :
    (linesOf signals).contains line = true ↔ .request line ∈ signals := by
  induction signals with
  | nil => simp [linesOf, LineSet.contains]
  | cons signal rest ih =>
      rw [linesOf, LineSet.contains_union, Bool.or_eq_true, ih, List.mem_cons]
      apply or_congr_left
      cases signal with
      | request raised =>
          have honly : Signal.lines (.request raised) = LineSet.onlyIf true raised := rfl
          rw [honly, LineSet.contains_onlyIf, Bool.true_and, decide_eq_true_iff, Signal.request.injEq]
      | _ => simp [Signal.lines, LineSet.contains]

end Picture

/-- A line whose request is withdrawn is requested afterwards if it is requested anew. -/
theorem InterruptController.contains_raise_clear (c : InterruptController)
    (signals : List Picture.Signal) (line : Interrupt) :
    ((c.clear (.only line)).raise (Picture.linesOf signals)).requested.contains line = true ↔
      .request line ∈ signals := by
  unfold raise clear
  rw [LineSet.contains_union, LineSet.contains_diff_only, Bool.false_or, Picture.contains_linesOf]

namespace Picture

variable {u u' : Picture} {signals : List Signal}

/-! ### Counting -/

/-- The number of dots among some beats that request the status interrupt: its request is withdrawn
    before each dot, and the dot counts if the interrupt is requested after it. -/
def statDots (u : Picture) (c : InterruptController) : List Beat → Nat
  | [] => 0
  | .dot :: rest =>
    let after := (c.clear (.only .lcdStat)).raise (linesOf (u.play .dot).2)
    (if after.requested.contains .lcdStat then 1 else 0) + statDots (u.play .dot).1 after rest
  | beat :: rest => statDots (u.play beat).1 (c.raise (linesOf (u.play beat).2)) rest

instance (u : Picture) (source : StatSource) : Decidable (u.Selects source) :=
  inferInstanceAs (Decidable (_ ≠ _))

/-- This source of the status interrupt is selected, and no other. -/
def SelectsOnly (u : Picture) (source : StatSource) : Prop :=
  ∀ other, u.Selects other ↔ other = source

/-- A beat that touches neither the selection of sources nor the line compared with. -/
def Beat.leavesSources : Beat → Bool
  | .write .stat _ | .write .lyc _ => false
  | _ => true

/-- The status interrupts of a frame if one source alone is selected. The source that goes with the
    look-up has one for each line of the screen, and one more where V-blank begins. -/
def StatSource.perFrame (lyc : UInt8) : StatSource → Nat
  | .hblank => 144
  | .vblank => 1
  | .oamScan => 145
  | .lineCompare => if lyc.toNat ≤ 153 then 1 else 0

/-- Those of them that a pass over the frame has had up to a point. The first line has its look-up
    requested at the end of the pass before. -/
def StatSource.passed (u : Picture) : StatSource → Nat
  | .hblank => u.linesDone
  | .vblank => if u.mode = .vblank then 1 else 0
  | .oamScan => min u.ly.toNat 144
  | .lineCompare => if 0 < u.lyc.toNat ∧ u.lyc.toNat ≤ u.ly.toNat then 1 else 0

/-- The move from one unit to the next requests the interrupt of a source that is selected alone. -/
def StatSource.Rises (u u' : Picture) (source : StatSource) : Prop :=
  ¬ source.Active u ∧
    (source.Active u' ∨
      source = .oamScan ∧ u.ly.toNat ≠ screenHeight ∧ u'.ly.toNat = screenHeight)

/-! ### The way down the frame -/

/-- What a source has had goes up by one with a move that requests its interrupt, and with no
    other. -/
def StatSource.Counted (u u' : Picture) (source : StatSource) : Prop :=
  (source.Rises u u' ∧ source.passed u' = source.passed u + 1) ∨
    (¬ source.Rises u u' ∧ source.passed u' = source.passed u)

/-- On the way down each line is compared with once. -/
theorem counted_lineCompare (hlyc : u'.lyc = u.lyc) (hly : u'.ly.toNat = u.ly.toNat + 1) :
    StatSource.lineCompare.Counted u u' := by
  have hrises : StatSource.lineCompare.Rises u u' ↔ u.lyc.toNat = u.ly.toNat + 1 := by
    simp only [StatSource.Rises, StatSource.Active, ← UInt8.toNat_inj, hlyc, hly, reduceCtorEq,
      false_and, or_false]
    omega
  simp only [StatSource.Counted, hrises, StatSource.passed, hlyc, hly]
  split <;> split <;> omega

/-- The look-up source has one interrupt for each line that the raster comes to, the first line below
    the screen included. -/
theorem counted_oamScan (hmode : u.mode ≠ .oamScan) (hly : u'.ly.toNat = u.ly.toNat + 1)
    (hnext : u'.mode = .oamScan ∧ u'.ly.toNat < screenHeight ∨ u'.ly.toNat = screenHeight ∨
      u'.mode ≠ .oamScan ∧ screenHeight < u'.ly.toNat) :
    StatSource.oamScan.Counted u u' := by
  have hrises : StatSource.oamScan.Rises u u' ↔
      u'.mode = .oamScan ∨ u.ly.toNat ≠ screenHeight ∧ u'.ly.toNat = screenHeight := by
    simp only [StatSource.Rises, StatSource.Active, true_and]
    exact and_iff_right hmode
  simp only [StatSource.Counted, hrises, StatSource.passed]
  simp only [screenHeight] at *
  rcases hnext with ⟨hscan, hline⟩ | hline | ⟨hscan, hline⟩
  · exact .inl ⟨.inl hscan, by omega⟩
  · exact .inl ⟨.inr ⟨by omega, hline⟩, by omega⟩
  · exact .inr ⟨not_or.mpr ⟨hscan, by omega⟩, by omega⟩

/-- A move that does not go back to the top of the frame. -/
theorem Moves.counted (h : Moves u u' signals) (hon : u.lcdOn = true) (hu : u.raster.Coherent)
    (htop : u.position + 1 < cyclesPerFrame) (source : StatSource) : source.Counted u u' := by
  have hplaced := hu.placed hon
  have hnext := toNat_add_one hplaced.line_lt
  simp only [Raster.Placed, raster] at hplaced hnext
  unfold StatSource.Counted StatSource.Rises StatSource.Active StatSource.passed linesDone
  cases h with
  | along hscan htransfer hline => cases source <;> simp
  | scanned hmode hdot => cases source <;> simp [beginTransfer, hmode]
  | drawn hmode hdot => cases source <;> simp [renderLine, hmode]
  | nextLine hmode hdot hly =>
      have hscan : u.mode ≠ .oamScan := hmode ▸ Mode.noConfusion
      cases source with
      | lineCompare => exact counted_lineCompare rfl hnext
      | oamScan => exact counted_oamScan hscan hnext (.inl ⟨rfl, hnext ▸ hly⟩)
      | vblank | hblank => simp [hmode, hnext]
  | vblank hmode hdot hly =>
      have hscan : u.mode ≠ .oamScan := hmode ▸ Mode.noConfusion
      cases source with
      | lineCompare => exact counted_lineCompare rfl hnext
      | oamScan => exact counted_oamScan hscan hnext (.inr (.inl (hnext ▸ hly)))
      | vblank | hblank => simp [enterVBlank, hmode, hly]
  | lower hmode hdot hly =>
      simp only [hmode] at hplaced
      have hbelow : screenHeight < (u.ly + 1).toNat := hnext ▸ Nat.lt_succ_of_le hplaced.1
      have hscan : u.mode ≠ .oamScan := hmode ▸ Mode.noConfusion
      cases source with
      | lineCompare => exact counted_lineCompare rfl hnext
      | oamScan => exact counted_oamScan hscan hnext (.inr (.inr ⟨hscan, hbelow⟩))
      | vblank | hblank => simp [hmode]
  | top hmode hdot hly =>
      exfalso
      simp only [position, cyclesPerFrame, linesPerFrame, dotsPerLine] at *
      omega

/-! ### The last dot -/

/-- The last position of the frame, from where the next dot goes to the top. -/
theorem nextDot_of_last (hon : u.lcdOn = true) (hu : u.raster.Coherent)
    (hlast : u.position + 1 = cyclesPerFrame) :
    u.mode = .vblank ∧ u.ly.toNat = 153 ∧
      u.nextDot.1 = { u with dot := 0, ly := 0, windowLine := 0, mode := .oamScan } := by
  have hline : u.ly.toNat < linesPerFrame := (hu.placed hon).line_lt
  have hdots := dot_lt hon hu
  have hends : u.ly.toNat + 1 = linesPerFrame ∧ u.dot + 1 = dotsPerLine := by
    simp only [position, cyclesPerFrame, linesPerFrame, dotsPerLine] at *
    omega
  have hbelow : screenHeight ≤ u.ly.toNat := by
    simp only [screenHeight, linesPerFrame] at *
    omega
  have hmode := (modesPlaced hon hu).vblank_iff.mpr hbelow
  refine ⟨hmode, Nat.succ.inj hends.1, ?_⟩
  rw [(Moves.top hmode hends.2 hends.1).nextDot_eq hon hu]

/-- With the last dot each source has had all that it has in a frame. -/
theorem counted_last (hon : u.lcdOn = true) (hu : u.raster.Coherent)
    (hlast : u.position + 1 = cyclesPerFrame) (source : StatSource) :
    (source.Rises u u.nextDot.1 ∧ source.passed u + 1 = source.perFrame u.lyc) ∨
      (¬ source.Rises u u.nextDot.1 ∧ source.passed u = source.perFrame u.lyc) := by
  obtain ⟨hmode, hly, hnext⟩ := nextDot_of_last hon hu hlast
  have hfirst : (0 : UInt8).toNat = 0 := rfl
  rw [hnext]
  cases source with
  | lineCompare =>
      simp only [StatSource.Rises, StatSource.Active, StatSource.passed, StatSource.perFrame,
        ← UInt8.toNat_inj, hly, hfirst, reduceCtorEq, false_and, or_false]
      split <;> split <;> omega
  | _ =>
      simp [StatSource.Rises, StatSource.Active, StatSource.passed, StatSource.perFrame, linesDone,
        hmode, hly, screenHeight]

/-! ### Requests of a source that is selected alone -/

theorem statDue_iff_active {source : StatSource} (hon : u.lcdOn = true) (h : u.SelectsOnly source) :
    u.StatDue ↔ source.Active u := by
  constructor
  · rintro ⟨-, other, hselected, hactive⟩
    rw [(h other).mp hselected] at hactive
    exact hactive
  · intro hactive
    exact ⟨hon, source, (h source).mpr rfl, hactive⟩

theorem SelectsOnly.congr {source : StatSource} (h : u.SelectsOnly source)
    (hselect : u'.statSelect = u.statSelect) : u'.SelectsOnly source := by
  intro other
  unfold Selects
  rw [hselect]
  exact h other

theorem request_lcdStat_dot_iff {source : StatSource} (hreach : Reachable u) (hon : u.lcdOn = true)
    (h : u.SelectsOnly source) :
    .request .lcdStat ∈ (u.play .dot).2 ↔ source.Rises u u.nextDot.1 := by
  have hu := hreach.coherent
  have hlit : u.tick.1.lcdOn = true := (lcdOn_tick u).trans hon
  have hselect : u.tick.1.statSelect = u.statSelect := statSelect_nextDot u
  have hactive : source.Active u.tick.1 ↔ source.Active u.nextDot.1 := by
    cases source <;> exact Iff.rfl
  have hscan : u.Selects .oamScan ↔ source = .oamScan := (h .oamScan).trans eq_comm
  have henters : u.EntersVBlank .dot ↔
      u.ly.toNat ≠ screenHeight ∧ u.nextDot.1.ly.toNat = screenHeight := by
    unfold EntersVBlank
    rw [play, advance_one hon]
    exact and_iff_right rfl
  rw [play, advance_one hon, request_lcdStat_tick hon hu (synced_of_reachable hreach),
    statDue_iff_active hon h, statDue_iff_active hlit (h.congr hselect), hactive, henters, hscan]
  constructor
  · rintro (⟨hnone, hrises⟩ | ⟨henter, hlookUp, hnone⟩)
    · exact ⟨hnone, .inl hrises⟩
    · exact ⟨hnone, .inr ⟨hlookUp, henter⟩⟩
  · rintro ⟨hnone, hrises | ⟨hlookUp, henter⟩⟩
    · exact .inl ⟨hnone, hrises⟩
    · exact .inr ⟨henter, hlookUp, hnone⟩

/-! ### Between dots -/

/-- Only writes to STAT and LYC change what is selected and what the line is compared with. -/
theorem sources_play {beat : Beat} (hon : u.lcdOn = true) (hu : u.raster.Coherent)
    (hleave : beat.leavesSources = true) :
    (u.play beat).1.statSelect = u.statSelect ∧ (u.play beat).1.lyc = u.lyc := by
  cases beat with
  | dot =>
      have hscene := (moves_nextDot hon hu).scene_eq
      rw [play, advance_one hon]
      exact ⟨(congrArg Picture.statSelect hscene :), (congrArg Picture.lyc hscene :)⟩
  | write register value =>
      cases register with
      | stat | lyc => cases hleave
      | lcdc =>
          simp only [play, write, writeLcdc, setLcd]
          repeat' split
          all_goals exact ⟨rfl, rfl⟩
      | _ => exact ⟨rfl, rfl⟩
  | writeVram i value =>
      simp only [play, writeVram]
      split <;> exact ⟨rfl, rfl⟩
  | writeOam i value =>
      simp only [play, writeOam]
      split <;> exact ⟨rfl, rfl⟩
  | _ => exact ⟨rfl, rfl⟩

theorem passed_play {beat : Beat} (hon : u.lcdOn = true) (hu : u.raster.Coherent)
    (hkeep : beat.keepsOn = true) (hleave : beat.leavesSources = true) (hdot : beat ≠ .dot)
    (source : StatSource) : source.passed (u.play beat).1 = source.passed u := by
  have hraster := raster_play hon hkeep hdot
  have hmode : (u.play beat).1.mode = u.mode := congrArg Raster.mode hraster
  have hly : (u.play beat).1.ly = u.ly := congrArg Raster.ly hraster
  have hlyc := (sources_play hon hu hleave).2
  cases source with
  | hblank => exact linesDone_play hon hkeep hdot
  | vblank => simp only [StatSource.passed, hmode]
  | oamScan => simp only [StatSource.passed, hly]
  | lineCompare => simp only [StatSource.passed, hly, hlyc]

/-! ### A frame -/

theorem statDots_dot (c : InterruptController) (rest : List Beat) :
    u.statDots c (.dot :: rest) = (if .request .lcdStat ∈ (u.play .dot).2 then 1 else 0) +
      (u.play .dot).1.statDots
        ((c.clear (.only .lcdStat)).raise (linesOf (u.play .dot).2)) rest := by
  rw [statDots]
  simp only [InterruptController.contains_raise_clear]

theorem statDots_of_no_dot {beats : List Beat} (h : beats.count .dot = 0) (u : Picture)
    (c : InterruptController) : u.statDots c beats = 0 := by
  induction beats generalizing u c with
  | nil => rfl
  | cons beat rest ih =>
      have hmem : .dot ∉ beat :: rest := List.count_eq_zero.mp h
      have hbeat : beat ≠ .dot := fun heq => hmem (heq ▸ List.mem_cons_self)
      rw [List.count_cons_of_ne hbeat] at h
      rw [statDots]
      · exact ih h _ _
      · exact hbeat

/-- From any point of a pass to its end: what a source has had by then and what it has from there on
    add up to what it has in a frame. -/
theorem statDots_add_passed {source : StatSource} {beats : List Beat} (hreach : Reachable u)
    (hon : u.lcdOn = true) (hsource : u.SelectsOnly source)
    (hkeep : ∀ beat ∈ beats, beat.keepsOn = true ∧ beat.leavesSources = true)
    (c : InterruptController) (hcount : u.position + beats.count .dot = cyclesPerFrame) :
    u.statDots c beats + source.passed u = source.perFrame u.lyc := by
  induction beats generalizing u c with
  | nil =>
      have hlt := position_lt hon hreach.coherent
      rw [List.count_nil, Nat.add_zero] at hcount
      exact absurd hcount (Nat.ne_of_lt hlt)
  | cons beat rest ih =>
      have hu := hreach.coherent
      obtain ⟨hfirst, hleave⟩ := hkeep beat List.mem_cons_self
      have hrest : ∀ beat ∈ rest, beat.keepsOn = true ∧ beat.leavesSources = true :=
        fun other hmem => hkeep other (List.mem_cons_of_mem _ hmem)
      have hon' := lcdOn_play hon hfirst
      obtain ⟨hselect, hlyc⟩ := sources_play hon hu hleave
      have hsource' := hsource.congr hselect
      by_cases hdot : beat = .dot
      · subst hdot
        have hplay : (u.play .dot).1 = u.tick.1 := by rw [play, advance_one hon]
        have hmoved : (u.play .dot).1.position = (u.position + 1) % cyclesPerFrame := by
          rw [hplay, position_tick hon hu]
        rw [List.count_cons_self] at hcount
        have hrequest := request_lcdStat_dot_iff hreach hon hsource
        rw [statDots_dot]
        by_cases hlast : u.position + 1 = cyclesPerFrame
        · -- what comes after the last dot counts nothing
          rw [statDots_of_no_dot (by omega)]
          rcases counted_last hon hu hlast source with ⟨hrises, hall⟩ | ⟨hnone, hall⟩
          · rw [if_pos (hrequest.mpr hrises)]
            omega
          · rw [if_neg (mt hrequest.mp hnone)]
            omega
        · have htop : u.position + 1 < cyclesPerFrame := by omega
          rw [Nat.mod_eq_of_lt htop] at hmoved
          have hpassed : source.passed (u.play .dot).1 = source.passed u.nextDot.1 := by
            rw [hplay]
            cases source <;> rfl
          have hsum := ih (.play hreach .dot) hon' hsource' hrest
            ((c.clear (.only .lcdStat)).raise (linesOf (u.play .dot).2)) (by omega)
          rw [hpassed, hlyc] at hsum
          rcases (moves_nextDot hon hu).counted hon hu htop source with
            ⟨hrises, hnext⟩ | ⟨hnone, hnext⟩
          · rw [if_pos (hrequest.mpr hrises)]
            omega
          · rw [if_neg (mt hrequest.mp hnone)]
            omega
      · rw [List.count_cons_of_ne hdot] at hcount
        have hposition := position_play hon hfirst hdot
        have hsum := ih (.play hreach beat) hon' hsource' hrest (c.raise (linesOf (u.play beat).2))
          (by omega)
        rw [passed_play hon hu hfirst hleave hdot, hlyc] at hsum
        rw [statDots]
        · exact hsum
        · exact hdot

theorem passed_of_top (hon : u.lcdOn = true) (hu : u.raster.Coherent) (hline : u.ly = 0)
    (hdot : u.dot = 0) (source : StatSource) : source.passed u = 0 := by
  have hmode := mode_of_top hon hu hline hdot
  have hfirst : (0 : UInt8).toNat = 0 := rfl
  cases source with
  | hblank => exact linesDone_of_top hon hu hline hdot
  | vblank => simp [StatSource.passed, hmode]
  | oamScan => simp [StatSource.passed, hline]
  | lineCompare =>
      simp only [StatSource.passed, hline, hfirst]
      exact if_neg fun h => Nat.not_lt.mpr h.2 h.1

/-- The status interrupts of a frame with one source selected. Whatever else is done to the unit
    between the dots, as long as the display stays on and neither the selection nor the line compared
    with is written, a frame from top to top has as many as the source says. -/
theorem statDots_of_frame {source : StatSource} {beats : List Beat} (h : Reachable u)
    (hon : u.lcdOn = true) (hline : u.ly = 0) (hdot : u.dot = 0) (hsource : u.SelectsOnly source)
    (hkeep : ∀ beat ∈ beats, beat.keepsOn = true ∧ beat.leavesSources = true)
    (hcount : beats.count .dot = cyclesPerFrame) (c : InterruptController) :
    u.statDots c beats = source.perFrame u.lyc := by
  have hfirst : (0 : UInt8).toNat = 0 := rfl
  have hstart : u.position + beats.count .dot = cyclesPerFrame := by
    rw [position, hline, hdot, hfirst, Nat.zero_mul, Nat.zero_add, hcount]
  have hsum := statDots_add_passed h hon hsource hkeep c hstart
  rw [passed_of_top hon h.coherent hline hdot source, Nat.add_zero] at hsum
  exact hsum

/-- A frame's dots, after the first of which the background is scrolled and takes other shades. -/
def shiftedFrame : List Beat :=
  .dot :: .write .scx 5 :: .write .bgp 0x1B :: List.replicate (cyclesPerFrame - 1) .dot

/-- A frame with the look-up source, and one with a line that is compared with and never reached. -/
theorem statDots_of_frame_shifted :
    (({} : Picture).play (.write .stat 0x20)).1.statDots {} shiftedFrame = 145 ∧
      ((({} : Picture).play (.write .lyc 154)).1.play (.write .stat 0x40)).1.statDots {}
        shiftedFrame = 0 := by
  have hkeep : ∀ beat ∈ shiftedFrame, beat.keepsOn = true ∧ beat.leavesSources = true := by
    intro beat hmem
    simp only [shiftedFrame, List.mem_cons, List.mem_replicate] at hmem
    rcases hmem with rfl | rfl | rfl | ⟨-, rfl⟩ <;> exact ⟨rfl, rfl⟩
  have hcount : shiftedFrame.count .dot = cyclesPerFrame := by
    have hscroll : Beat.write .scx 5 ≠ .dot := Beat.noConfusion
    have hshades : Beat.write .bgp 0x1B ≠ .dot := Beat.noConfusion
    rw [shiftedFrame, List.count_cons_self, List.count_cons_of_ne hscroll,
      List.count_cons_of_ne hshades, List.count_replicate_self]
    exact Nat.sub_add_cancel (by decide)
  have hscan : (({} : Picture).play (.write .stat 0x20)).1.SelectsOnly .oamScan := by
    intro other
    cases other <;> decide
  have hcompare : ((({} : Picture).play (.write .lyc 154)).1.play (.write .stat 0x40)).1.SelectsOnly
      .lineCompare := by
    intro other
    cases other <;> decide
  exact ⟨statDots_of_frame (.play .powerOn _) rfl rfl rfl hscan hkeep hcount {},
    statDots_of_frame (.play (.play .powerOn _) _) rfl rfl rfl hcompare hkeep hcount {}⟩

end Picture

end Handheld
