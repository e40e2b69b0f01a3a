/-
Module: Handheld.Proofs.Console.Chronicle
Purpose: What happens to the board while a console runs, act by act: the writes of the processor,
  the clock of each unit and the buttons. The acts of a run, done one after the other, lead to the
  board that the run leaves.
Main exports: Board.Act, Board.view_act, Board.actAll, Board.view_actAll, Chronicle,
  Console.Event, Console.performAll, Console.actsAll, Console.board_performAll,
  Console.Reachable.exists_events
-/
import Handheld.Proofs.Console.Frame

namespace Handheld

namespace Board

/-- What can happen to a board. -/
inductive Act where
  | write (address : UInt16) (value : UInt8)
  /-- The processor asks whether it is to leave STOP. -/
  | takeWake
  | timer (cycles : Nat)
  | picture (cycles : Nat)
  | press (button : Button)
  | release (button : Button)
  | forgetFrame
  | reset (fill : RamFill)
deriving DecidableEq, Repr

/-- The acts of a processor; the others are those of the clock and of who plays. -/
def Act.isProcessor : Act → Bool
  | .write _ _ | .takeWake => true
  | _ => false

/-- The board after an act. -/
def act (b : Board) : Act → Board
  | .write address value => (b.write address value).1
  | .takeWake => b.takeWake.2
  | .timer cycles => b.advanceTimer cycles
  | .picture cycles => (b.advancePicture cycles).1
  | .press button => (b.press button).1
  | .release button => b.release button
  | .forgetFrame => { b with picture := b.picture.clearFrameReady }
  | .reset fill => b.reset fill

/-- The board after acts in order. -/
def actAll (b : Board) (acts : List Act) : Board :=
  acts.foldl act b

theorem actAll_append (b : Board) (acts more : List Act) :
    b.actAll (acts ++ more) = (b.actAll acts).actAll more :=
  List.foldl_append

/-- Acts other than writes and resets reach no unit but those of the clock, the joypad and the
    interrupts. -/
theorem view_act {α : Type} (view : Board → α) {b : Board} {act : Act}
    (hview : ∀ picture timer interrupts joypad,
      view { b with picture, timer, interrupts, joypad } = view b)
    (hwrite : ∀ address value, act ≠ .write address value) (hreset : ∀ fill, act ≠ .reset fill) :
    view (b.act act) = view b := by
  cases act with
  | write address value => exact absurd rfl (hwrite address value)
  | reset fill => exact absurd rfl (hreset fill)
  | timer cycles =>
      rw [act, advanceTimer_eq]
      exact hview _ _ _ _
  | picture cycles =>
      rw [act, advancePicture_eq]
      exact hview _ _ _ _
  | press button =>
      obtain ⟨joypad, interrupts, hpressed⟩ := b.press_units button
      rw [act, hpressed]
      exact hview _ _ _ _
  | _ => exact hview _ _ _ _

/-- What neither a write changes nor the question whether to leave STOP, no act of a processor
    changes. -/
theorem view_actAll {α : Type} {view : Board → α}
    (hwrite : ∀ (b : Board) address value, view (b.write address value).1 = view b)
    (hwake : ∀ b : Board, view b.takeWake.2 = view b) {acts : List Act}
    (h : ∀ act ∈ acts, act.isProcessor = true) (b : Board) : view (b.actAll acts) = view b := by
  induction acts generalizing b with
  | nil => rfl
  | cons act rest ih =>
      obtain ⟨hfirst, hrest⟩ := List.forall_mem_cons.mp h
      refine (ih hrest (b.act act)).trans ?_
      cases act with
      | write address value => exact hwrite b address value
      | takeWake => exact hwake b
      | _ => cases hfirst

end Board

/-- A board with a record of what the processor has done to it, the latest first. -/
structure Chronicle where
  bus : NotedBoard
  latestFirst : List Board.Act := []

namespace Chronicle

instance : Bus Chronicle where
  read j address := (j.bus.board.read address, j)
  write j address value := ⟨Bus.write j.bus address value, .write address value :: j.latestFirst⟩
  takeWake j := ((Bus.takeWake j.bus).1, ⟨(Bus.takeWake j.bus).2, .takeWake :: j.latestFirst⟩)
  hear j note := { j with bus := Bus.hear j.bus note }

def acts (j : Chronicle) : List Board.Act :=
  j.latestFirst.reverse

end Chronicle

/-- Keeping a record changes nothing but the record, and the record tells how the board has
    come about. -/
theorem Dialogue.run_chronicle {α : Type} (d : Dialogue α) (j : Chronicle) :
    (d.run j).1 = (d.run j.bus).1 ∧ (d.run j).2.bus = (d.run j.bus).2 ∧
      ∃ acts, (d.run j).2.acts = j.acts ++ acts ∧
        (d.run j.bus).2.board = j.bus.board.actAll acts := by
  induction d generalizing j with
  | done result => exact ⟨rfl, rfl, [], (List.append_nil _).symm, rfl⟩
  | read address next ih => exact ih _ j
  | write address value next ih =>
      rcases ih (Bus.write j address value) with ⟨hresult, hbus, acts, hacts, hboard⟩
      have hlonger : (Bus.write j address value).acts = j.acts ++ [.write address value] :=
        List.reverse_cons
      rw [hlonger, List.append_assoc] at hacts
      exact ⟨hresult, hbus, .write address value :: acts, hacts, hboard⟩
  | takeWake next ih =>
      rcases ih (Bus.takeWake j).1 (Bus.takeWake j).2 with ⟨hresult, hbus, acts, hacts, hboard⟩
      have hlonger : (Bus.takeWake j).2.acts = j.acts ++ [.takeWake] := List.reverse_cons
      rw [hlonger, List.append_assoc] at hacts
      exact ⟨hresult, hbus, .takeWake :: acts, hacts, hboard⟩
  | hear note next ih => exact ih (Bus.hear j note)

theorem Dialogue.isProcessor_run {α : Type} (d : Dialogue α) {j : Chronicle}
    (h : ∀ act ∈ j.latestFirst, act.isProcessor = true) :
    ∀ act ∈ (d.run j).2.latestFirst, act.isProcessor = true := by
  induction d generalizing j with
  | done result => exact h
  | read address next ih => exact ih _ h
  | write address value next ih => exact ih (List.forall_mem_cons.mpr ⟨rfl, h⟩)
  | takeWake next ih => exact ih _ (List.forall_mem_cons.mpr ⟨rfl, h⟩)
  | hear note next ih => exact ih h

namespace Core

/-- The processor on the same board with an empty record. -/
def chronicle (m : Core NotedBoard) : Core Chronicle :=
  ⟨m.cpu, ⟨m.bus, []⟩⟩

/-- What a step does to the board. -/
def acts (m : Core NotedBoard) : List Board.Act :=
  m.chronicle.step.2.bus.acts

theorem step_chronicle (m : Core NotedBoard) :
    m.chronicle.step.1 = m.step.1 ∧ m.step.2.bus.board = m.bus.board.actAll m.acts := by
  obtain ⟨d, hrun⟩ := exists_dialogue_step m.cpu
  have hplain : m.step = d.runCore m.bus := hrun m.bus
  have hrecorded : m.chronicle.step = d.runCore (⟨m.bus, []⟩ : Chronicle) := hrun _
  rcases d.run_chronicle ⟨m.bus, []⟩ with ⟨hresult, -, acts, hacts, hboard⟩
  unfold Core.acts
  rw [hrecorded, hplain]
  unfold Dialogue.runCore
  rw [hresult]
  refine ⟨rfl, ?_⟩
  dsimp only
  rw [hacts]
  exact hboard

/-- A step records nothing but what the processor does. -/
theorem isProcessor_of_mem_acts {m : Core NotedBoard} {act : Board.Act} (h : act ∈ m.acts) :
    act.isProcessor = true := by
  obtain ⟨d, hrun⟩ := exists_dialogue_step m.cpu
  have hrecorded : m.chronicle.step = d.runCore (⟨m.bus, []⟩ : Chronicle) := hrun _
  have hnone : ∀ act ∈ (⟨m.bus, []⟩ : Chronicle).latestFirst, act.isProcessor = true :=
    List.forall_mem_nil _
  unfold acts Chronicle.acts at h
  rw [hrecorded, List.mem_reverse] at h
  exact d.isProcessor_run hnone act h

end Core

namespace Console

/-- What can happen to a console. -/
inductive Event where
  | step
  | forgetFrame
  | press (button : Button)
  | release (button : Button)
  | keyDown (code : UInt32)
  | keyUp (code : UInt32)
  | reset
deriving DecidableEq, Repr

/-- The console after an event. -/
def perform (c : Console) : Event → Console
  | .step => c.step.2
  | .forgetFrame => c.forgetFrame
  | .press button => c.press button
  | .release button => c.release button
  | .keyDown code => c.keyDown code
  | .keyUp code => c.keyUp code
  | .reset => c.reset

/-- The console after events in order. -/
def performAll (c : Console) (events : List Event) : Console :=
  events.foldl perform c

/-- What an event does to the board. In a step the processor comes first, then the timer and then
    the picture unit. -/
def acts (c : Console) : Event → List Board.Act
  | .step =>
    match c.core.step.1 with
    | .error _ => c.core.acts
    | .ok report => c.core.acts ++ [.timer report.cycles, .picture report.cycles]
  | .forgetFrame => [.forgetFrame]
  | .press button => [.press button]
  | .release button => [.release button]
  | .keyDown code =>
    match c.settings.keyMap.button? code with
    | some button => [.press button]
    | none => []
  | .keyUp code =>
    match c.settings.keyMap.button? code with
    | some button => [.release button]
    | none => []
  | .reset => [.reset c.settings.ramFill]

/-- What events in order do to the board. -/
def actsAll (c : Console) : List Event → List Board.Act
  | [] => []
  | event :: rest => c.acts event ++ (c.perform event).actsAll rest

variable {c : Console}

theorem board_mapNoted (c : Console) (f : Board → Board × List Note) :
    (c.mapNoted f).board = (f c.board).1 := rfl

theorem cpu_step (c : Console) : c.step.2.cpu = c.core.step.2.cpu := by
  rw [step_eq]
  cases c.core.step.1 <;> rfl

theorem board_step (c : Console) : c.step.2.board = c.board.actAll (c.acts .step) := by
  have hacted := c.core.step_chronicle.2
  rw [step_eq]
  unfold acts
  cases hcore : c.core.step.1 with
  | error fault => exact hacted
  | ok report =>
      dsimp only
      rw [Board.actAll_append]
      unfold board at hacted ⊢
      rw [← hacted]
      rfl

theorem board_perform (c : Console) (event : Event) :
    (c.perform event).board = c.board.actAll (c.acts event) := by
  cases event with
  | step => exact c.board_step
  | keyDown code =>
      dsimp only [perform, keyDown, acts]
      cases c.settings.keyMap.button? code <;> rfl
  | keyUp code =>
      dsimp only [perform, keyUp, acts]
      cases c.settings.keyMap.button? code <;> rfl
  | _ => rfl

/-- The acts of a run lead to the board that it leaves. -/
theorem board_performAll (c : Console) (events : List Event) :
    (c.performAll events).board = c.board.actAll (c.actsAll events) := by
  induction events generalizing c with
  | nil => rfl
  | cons event rest ih =>
      rw [actsAll, Board.actAll_append, ← board_perform]
      exact ih (c.perform event)

/-! ### Runs of events -/

theorem performAll_append (c : Console) (events more : List Event) :
    c.performAll (events ++ more) = (c.performAll events).performAll more :=
  List.foldl_append

theorem exists_events_stepToFrame (limit : Nat) (c : Console) :
    ∃ events, (stepToFrame limit c).2 = c.performAll events := by
  induction limit generalizing c with
  | zero => exact ⟨[], rfl⟩
  | succ limit ih =>
      rcases ih c.step.2 with ⟨events, hrest⟩
      unfold stepToFrame
      cases hstep : c.step with
      | mk result next =>
          rw [hstep] at hrest
          have hfirst : c.performAll [.step] = next := congrArg Prod.snd hstep
          cases result with
          | error fault => exact ⟨[.step], hfirst.symm⟩
          | ok cycles =>
              dsimp only at hrest ⊢
              split
              · refine ⟨[.step, .forgetFrame], ?_⟩
                exact congrArg forgetFrame hfirst.symm
              · refine ⟨.step :: events, ?_⟩
                rw [hrest, ← hfirst]
                rfl

/-- The console comes about from power-on by these events. -/
def ComesFrom (c : Console) (events : List Event) : Prop :=
  ∃ rom settings start notes, powerOn rom settings = (.ok start, notes) ∧
    c = start.performAll events

theorem exists_comesFrom_performAll (h : ∃ events, c.ComesFrom events) (more : List Event) :
    ∃ events, (c.performAll more).ComesFrom events := by
  rcases h with ⟨events, rom, settings, start, notes, hstart, rfl⟩
  exact ⟨events ++ more, rom, settings, start, notes, hstart,
    (performAll_append start events more).symm⟩

/-- Every console that can come about does so by events. -/
theorem Reachable.exists_events (h : c.Reachable) : ∃ events, c.ComesFrom events := by
  induction h with
  | @powerOn rom settings c notes h => exact ⟨[], rom, settings, c, notes, h, rfl⟩
  | step h ih => exact exists_comesFrom_performAll ih [.step]
  | @runFrame c h limit ih =>
      rcases exists_events_stepToFrame limit c.forgetFrame with ⟨events, hrun⟩
      have hframe : (c.runFrame limit).2 = c.performAll (.forgetFrame :: events) := hrun
      rw [hframe]
      exact exists_comesFrom_performAll ih (.forgetFrame :: events)
  | press h button ih => exact exists_comesFrom_performAll ih [.press button]
  | release h button ih => exact exists_comesFrom_performAll ih [.release button]
  | keyDown h code ih => exact exists_comesFrom_performAll ih [.keyDown code]
  | keyUp h code ih => exact exists_comesFrom_performAll ih [.keyUp code]
  | reset h ih => exact exists_comesFrom_performAll ih [.reset]

end Console

end Handheld
