/-
Module: Handheld.Proofs.Console.PowerCycle
Purpose: Switching a console off and on again. Whatever has been done to it, it becomes the console
  that was built, but for the bytes of cartridge RAM; and consoles that are alike answer alike from
  then on, whatever notes they have made before.
Main exports: NotedBoard.Alike, Console.Alike, Console.Alike.callAll, Cartridge.reset_replay,
  Console.reset_callAll, Console.reset_powerCycle
-/
import Handheld.Proofs.Cartridge.RomBanks
import Handheld.Proofs.Console.Calls

namespace Handheld

/-! ### Boards that are alike -/

/-- Two boards are the same but for the notes made before, the first two lists: all notes made since
    then are the same. -/
structure NotedBoard.Alike (old old' : List Note) (b b' : NotedBoard) : Prop where
  board : b.board = b'.board
  notes : ∃ made, b.latestFirst = made ++ old ∧ b'.latestFirst = made ++ old'

namespace NotedBoard.Alike

variable {old old' : List Note} {b b' : NotedBoard}

theorem mapBoard (h : Alike old old' b b') (f : Board → Board) :
    Alike old old' { b with board := f b.board } { b' with board := f b'.board } :=
  ⟨congrArg f h.board, h.notes⟩

theorem noting (h : Alike old old' b b') (f : Board → Board × List Note) :
    Alike old old' (b.noting f) (b'.noting f) := by
  obtain ⟨hboard, made, hleft, hright⟩ := h
  rcases b with ⟨board, latestFirst⟩
  rcases b' with ⟨board', latestFirst'⟩
  obtain rfl : board = board' := hboard
  obtain rfl : latestFirst = made ++ old := hleft
  obtain rfl : latestFirst' = made ++ old' := hright
  refine ⟨rfl, (f board).2.reverse ++ made, ?_, ?_⟩ <;>
    exact List.reverseAux_eq.trans (List.append_assoc _ _ _).symm

/-- A dialogue comes to the same end with both. -/
theorem run {α : Type} (h : Alike old old' b b') (d : Dialogue α) :
    (d.run b).1 = (d.run b').1 ∧ Alike old old' (d.run b).2 (d.run b').2 := by
  induction d generalizing b b' with
  | done result => exact ⟨rfl, h⟩
  | read address next ih =>
      have hvalue : (Bus.read b address).1 = (Bus.read b' address).1 :=
        congrArg (Board.read · address) h.board
      unfold Dialogue.run
      rw [hvalue]
      exact ih _ h
  | write address value next ih => exact ih (h.noting _)
  | takeWake next ih =>
      have hwake : (Bus.takeWake b).1 = (Bus.takeWake b').1 :=
        congrArg (fun board => (Board.takeWake board).1) h.board
      unfold Dialogue.run
      rw [hwake]
      exact ih _ (h.mapBoard fun board => (Board.takeWake board).2)
  | hear note next ih =>
      obtain ⟨made, hleft, hright⟩ := h.notes
      exact ih ⟨h.board, note :: made, congrArg (note :: ·) hleft, congrArg (note :: ·) hright⟩

end NotedBoard.Alike

namespace Console

/-! ### Consoles that are alike -/

/-- Two consoles are the same but for the notes made before. -/
structure Alike (old old' : List Note) (c d : Console) : Prop where
  cpu : c.cpu = d.cpu
  bus : c.core.bus.Alike old old' d.core.bus
  settings : c.settings = d.settings

namespace Alike

variable {old old' : List Note} {c d : Console}

theorem board (h : Alike old old' c d) : c.board = d.board := h.bus.board

theorem mapBoard (h : Alike old old' c d) (f : Board → Board) :
    Alike old old' (c.mapBoard f) (d.mapBoard f) :=
  ⟨h.cpu, h.bus.mapBoard f, h.settings⟩

theorem mapNoted (h : Alike old old' c d) (f : Board → Board × List Note) :
    Alike old old' (c.mapNoted f) (d.mapNoted f) :=
  ⟨h.cpu, h.bus.noting f, h.settings⟩

/-- The processors of two such consoles do the same. -/
theorem coreStep (h : Alike old old' c d) : c.core.step.1 = d.core.step.1 ∧
    c.core.step.2.cpu = d.core.step.2.cpu ∧
      c.core.step.2.bus.Alike old old' d.core.step.2.bus := by
  obtain ⟨dialogue, hrun⟩ := Core.exists_dialogue_step c.core.cpu
  have hleft : c.core.step = dialogue.runCore c.core.bus := hrun c.core.bus
  have hright : d.core.step = dialogue.runCore d.core.bus := by
    have hcpu : d.core = ⟨c.core.cpu, d.core.bus⟩ := congrArg (Core.mk · d.core.bus) h.cpu.symm
    rw [hcpu]
    exact hrun d.core.bus
  obtain ⟨hresult, hbus⟩ := h.bus.run dialogue
  obtain ⟨hanswer, hcpu⟩ := Prod.ext_iff.mp hresult
  rw [hleft, hright]
  exact ⟨hanswer, hcpu, hbus⟩

theorem step (h : Alike old old' c d) :
    c.step.1 = d.step.1 ∧ Alike old old' c.step.2 d.step.2 := by
  obtain ⟨hresult, hcpu, hbus⟩ := h.coreStep
  rw [Console.step_eq, Console.step_eq, hresult]
  cases d.core.step.1 with
  | error fault => exact ⟨rfl, hcpu, hbus, h.settings⟩
  | ok report => exact ⟨rfl, hcpu, hbus.noting fun board => board.advance report.cycles, h.settings⟩

theorem forgetFrame (h : Alike old old' c d) : Alike old old' c.forgetFrame d.forgetFrame :=
  h.mapBoard _

theorem stepToFrame (h : Alike old old' c d) (limit : Nat) :
    (stepToFrame limit c).1 = (stepToFrame limit d).1 ∧
      Alike old old' (stepToFrame limit c).2 (stepToFrame limit d).2 := by
  induction limit generalizing c d with
  | zero => exact ⟨rfl, h⟩
  | succ limit ih =>
      obtain ⟨hresult, hnext⟩ := h.step
      unfold Console.stepToFrame
      generalize c.step = left at hresult hnext ⊢
      generalize d.step = right at hresult hnext ⊢
      rcases left with ⟨result, next⟩
      rcases right with ⟨result', next'⟩
      obtain rfl : result = result' := hresult
      cases result with
      | error fault => exact ⟨rfl, hnext⟩
      | ok cycles =>
          have hready : next.core.bus.board.picture.frameReady =
              next'.core.bus.board.picture.frameReady :=
            congrArg (fun board => board.picture.frameReady) hnext.board
          dsimp only
          rw [hready]
          split
          · exact ⟨rfl, hnext.forgetFrame⟩
          · exact ih hnext

theorem runFrame (h : Alike old old' c d) (limit : Nat) :
    (c.runFrame limit).1 = (d.runFrame limit).1 ∧
      Alike old old' (c.runFrame limit).2 (d.runFrame limit).2 :=
  h.forgetFrame.stepToFrame limit

theorem runFrames (h : Alike old old' c d) (limit frames : Nat) :
    (runFrames limit frames c).1 = (runFrames limit frames d).1 ∧
      Alike old old' (runFrames limit frames c).2 (runFrames limit frames d).2 := by
  induction frames generalizing c d with
  | zero => exact ⟨rfl, h⟩
  | succ frames ih =>
      obtain ⟨hresult, hnext⟩ := h.runFrame limit
      unfold Console.runFrames
      generalize c.runFrame limit = left at hresult hnext ⊢
      generalize d.runFrame limit = right at hresult hnext ⊢
      rcases left with ⟨result, next⟩
      rcases right with ⟨result', next'⟩
      obtain rfl : result = result' := hresult
      cases result with
      | done => exact ih hnext
      | fault fault => exact ⟨rfl, hnext⟩
      | unfinished => exact ⟨rfl, hnext⟩

theorem press (h : Alike old old' c d) (button : Button) :
    Alike old old' (c.press button) (d.press button) :=
  h.mapNoted _

theorem release (h : Alike old old' c d) (button : Button) :
    Alike old old' (c.release button) (d.release button) :=
  h.mapBoard _

theorem keyDown (h : Alike old old' c d) (code : UInt32) :
    Alike old old' (c.keyDown code) (d.keyDown code) := by
  unfold Console.keyDown
  rw [h.settings]
  cases d.settings.keyMap.button? code with
  | none => exact h
  | some button => exact h.press button

theorem keyUp (h : Alike old old' c d) (code : UInt32) :
    Alike old old' (c.keyUp code) (d.keyUp code) := by
  unfold Console.keyUp
  rw [h.settings]
  cases d.settings.keyMap.button? code with
  | none => exact h
  | some button => exact h.release button

theorem reset (h : Alike old old' c d) : Alike old old' c.reset d.reset := by
  have hbus : c.reset.core.bus = (c.mapBoard (Board.reset · d.settings.ramFill)).core.bus :=
    congrArg (fun s : Settings => (c.mapBoard (Board.reset · s.ramFill)).core.bus) h.settings
  have hreset := h.mapBoard (Board.reset · d.settings.ramFill)
  exact ⟨rfl, hbus ▸ hreset.bus, h.settings⟩

theorem call (h : Alike old old' c d) (call : Call) :
    (c.call call).1 = (d.call call).1 ∧ Alike old old' (c.call call).2 (d.call call).2 := by
  cases call with
  | step => exact ⟨congrArg Answer.stepped h.step.1, h.step.2⟩
  | runFrame limit => exact ⟨congrArg Answer.ran (h.runFrame limit).1, (h.runFrame limit).2⟩
  | runFrames limit frames =>
      exact ⟨congrArg Answer.ran (h.runFrames limit frames).1, (h.runFrames limit frames).2⟩
  | press button => exact ⟨rfl, h.press button⟩
  | release button => exact ⟨rfl, h.release button⟩
  | keyDown code => exact ⟨rfl, h.keyDown code⟩
  | keyUp code => exact ⟨rfl, h.keyUp code⟩
  | write address value => exact ⟨rfl, h.mapNoted _⟩
  | reset => exact ⟨rfl, h.reset⟩

/-- Any number of calls get the same answers from both. -/
theorem callAll (h : Alike old old' c d) (calls : List Call) :
    (c.callAll calls).1 = (d.callAll calls).1 ∧
      Alike old old' (c.callAll calls).2 (d.callAll calls).2 := by
  induction calls generalizing c d with
  | nil => exact ⟨rfl, h⟩
  | cons call rest ih =>
      obtain ⟨hanswer, hnext⟩ := h.call call
      obtain ⟨hanswers, hlast⟩ := ih hnext
      refine ⟨?_, hlast⟩
      rw [Console.callAll, Console.callAll, hanswer, hanswers]

end Alike

end Console

/-! ### Off and on again -/

/-- A cartridge that is reset is the one that was put in, with the bytes of its RAM. -/
theorem Cartridge.reset_replay {c : Cartridge} (hstart : c.banking.reset = c.banking)
    (history : List Board.Act) :
    (c.replay history).reset = { c with ram := (c.replay history).ram } := by
  obtain ⟨hrom, hheader, -⟩ := c.fixed_replay history
  have hbanking : (c.replay history).banking.reset = c.banking := by
    rw [banking_replay hstart, Banking.reset_ofHistory, hstart]
  unfold Cartridge.reset
  rw [hrom, hheader, hbanking]

namespace Console

variable {rom : Array UInt8} {settings : Settings} {start : Console} {notes : List Note}

theorem exists_cartridge_of_powerOn (h : powerOn rom settings = (.ok start, notes)) :
    ∃ cartridge, cartridge.banking.reset = cartridge.banking ∧
      start = ⟨⟨.boot, ⟨Board.powerOn cartridge settings.ramFill, []⟩⟩, settings⟩ := by
  unfold powerOn at h
  cases hload : Cartridge.load rom with
  | mk result made =>
      rw [hload] at h
      cases result with
      | error e => cases h
      | ok cartridge =>
          cases h
          have hloaded := Cartridge.loadedFrom_of_load hload
          exact ⟨cartridge, Cartridge.reset_of_bankingFor hloaded.banking, rfl⟩

/-- A console that is reset has the processor, the settings and the board that it was built with,
    but for the bytes of cartridge RAM. -/
theorem reset_callAll (h : powerOn rom settings = (.ok start, notes)) (calls : List Call) :
    (start.callAll calls).2.reset.cpu = start.cpu ∧
      (start.callAll calls).2.reset.settings = start.settings ∧
      (start.callAll calls).2.reset.board = { start.board with
        cartridge := { start.board.cartridge with
          ram := (start.callAll calls).2.board.cartridge.ram } } := by
  obtain ⟨cartridge, hclosed, hstart⟩ := exists_cartridge_of_powerOn h
  -- of the board the reset makes all anew but the cartridge, so only the cartridge has a history
  obtain ⟨acts, hboard, hsettings⟩ := start.exists_acts_callAll calls
  generalize (start.callAll calls).2 = c at hboard hsettings ⊢
  subst hstart
  have hcartridge : c.board.cartridge = cartridge.replay acts.reverse := by
    rw [hboard, ← Board.cartridge_actAll_powerOn cartridge settings.ramFill, List.reverse_reverse]
    rfl
  have hreset : c.board.cartridge.reset = { cartridge with ram := c.board.cartridge.ram } := by
    rw [hcartridge]
    exact Cartridge.reset_replay hclosed acts.reverse
  refine ⟨rfl, hsettings, ?_⟩
  calc c.reset.board
      = Board.powerOn c.board.cartridge.reset c.settings.ramFill := rfl
    _ = Board.powerOn { cartridge with ram := c.board.cartridge.ram } settings.ramFill := by
      rw [hreset, hsettings]
    _ = _ := rfl

/-- A reset is a power cycle: whatever has been asked of a console since it was built, it is again
    the console that was built, but for the bytes of cartridge RAM, which are those from before the
    reset. Where they are the bytes it was built with, nothing tells the two apart: all later calls
    get the same answers, and make the same notes. -/
theorem reset_powerCycle (h : powerOn rom settings = (.ok start, notes)) (calls : List Call) :
    let c := (start.callAll calls).2
    (c.reset.cpu = start.cpu ∧ c.reset.settings = start.settings ∧
        c.reset.board = { start.board with
          cartridge := { start.board.cartridge with ram := c.board.cartridge.ram } }) ∧
      (c.board.cartridge.ram = start.board.cartridge.ram → ∀ later : List Call,
        (c.reset.callAll later).1 = (start.callAll later).1 ∧
          Alike c.core.bus.latestFirst start.core.bus.latestFirst
            (c.reset.callAll later).2 (start.callAll later).2) := by
  intro c
  obtain ⟨hcpu, hsettings, hboard⟩ := reset_callAll h calls
  refine ⟨⟨hcpu, hsettings, hboard⟩, ?_⟩
  intro hram later
  have hfresh : c.reset.board = start.board := by
    have hsame : c.reset.board = { start.board with
        cartridge := { start.board.cartridge with ram := c.board.cartridge.ram } } := hboard
    rw [hsame, hram]
  have halike : Alike c.core.bus.latestFirst start.core.bus.latestFirst c.reset start :=
    ⟨hcpu, ⟨hfresh, [], rfl, rfl⟩, hsettings⟩
  exact halike.callAll later

/-- A bank, a byte of work RAM and a button are set, and nothing of them is left after a reset. With
    no byte of cartridge RAM changed, the console cannot be told from a new one. -/
theorem reset_powerCycle_threeBankRom :
    ∃ start notes, powerOn Cartridge.threeBankRom {} = (.ok start, notes) ∧
      let c := (start.callAll [.write 0x2000 0x05, .write 0xC000 0x42, .press .a]).2
      c.board.cartridge.banking = .mbc1 { low := 0x05 } ∧
        c.reset.cpu = start.cpu ∧ c.reset.board = start.board ∧
          ∀ later, (c.reset.callAll later).1 = (start.callAll later).1 := by
  obtain ⟨cartridge, notes, hload⟩ := Cartridge.load_threeBankRom
  have hbanking : cartridge.banking = .mbc1 {} := by
    refine (Cartridge.loadedFrom_of_load hload).banking_eq ?_
    rw [Cartridge.getD_threeBankRom (by decide)]
    exact Cartridge.bankingFor_mbc1 (by decide)
  -- the bytes with which the RAM is filled do not matter, so the board stays closed
  obtain ⟨board, hfresh⟩ : ∃ board, board = Board.powerOn cartridge .standard := ⟨_, rfl⟩
  have hslot : board.cartridge = cartridge := hfresh ▸ Board.cartridge_powerOn _ _
  have h : powerOn Cartridge.threeBankRom {} = (.ok ⟨⟨.boot, ⟨board, []⟩⟩, {}⟩, notes) := by
    rw [powerOn, hload, hfresh]
  have hafter : board.cartridge.replay [.press .a, .write 0xC000 0x42, .write 0x2000 0x05] =
      { cartridge with banking := .mbc1 { low := 0x05 } } := by
    rw [hslot]
    rcases cartridge with ⟨header, image, ram, banking⟩
    obtain rfl : banking = .mbc1 {} := hbanking
    rfl
  have hcartridge := (board.cartridge_actAll _).trans hafter
  have hram := (congrArg Cartridge.ram hcartridge).trans (congrArg Cartridge.ram hslot).symm
  obtain ⟨⟨hcpu, -, -⟩, hlater⟩ :=
    reset_powerCycle h [.write 0x2000 0x05, .write 0xC000 0x42, .press .a]
  exact ⟨_, notes, h, congrArg Cartridge.banking hcartridge, hcpu, (hlater hram []).2.board,
    fun later => (hlater hram later).1⟩

end Console

end Handheld
