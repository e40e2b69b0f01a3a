/-
Module: Handheld.Proofs.CommandLine.HoldSchedule
Purpose: What a list of holds asks for is a first frame for each button. Lists that agree about those
  among the frames that are run lead to the same outcome of the program, whatever the cartridge does
  and however many steps a frame may take: presses commute, a held button takes no notice of another
  press, and no frame lets a button go.
Main exports: heldFrom?, SameSchedule, Begun, SameCourse, begun_iff, sameSchedule_iff, play_congr,
  picture_congr, run_congr, holds_form_a_set
-/
import Handheld.CommandLine.Session
import Handheld.Proofs.Console.PowerCycle
import Handheld.Proofs.Console.Presses

namespace Handheld.CommandLine

/-! ### Schedules -/

/-- The first of the frames below `frames` from which on a button is held, if there is one. -/
def heldFrom? (holds : List Hold) (frames : Nat) (button : Button) : Option Nat :=
  (((holds.filter fun hold => hold.button = button).map fun hold => hold.frame.toNat).filter
    fun frame => frame < frames).min?

/-- Two lists of holds give every button the same first frame below `frames`, or none. -/
def SameSchedule (frames : Nat) (holds holds' : List Hold) : Prop :=
  ∀ button, heldFrom? holds frames button = heldFrom? holds' frames button

/-- The holding of a button has begun before a frame. -/
def Begun (holds : List Hold) (frame : Nat) (button : Button) : Prop :=
  ∃ hold ∈ holds, hold.button = button ∧ hold.frame.toNat < frame

variable {holds holds' : List Hold} {frame frames first : Nat} {button : Button}

theorem heldFrom?_eq_some_iff : heldFrom? holds frames button = some first ↔
    first < frames ∧ (∃ hold ∈ holds, hold.button = button ∧ hold.frame.toNat = first) ∧
      ¬ Begun holds first button := by
  unfold heldFrom? Begun
  rw [List.min?_eq_some_iff]
  simp only [List.mem_filter, List.mem_map, decide_eq_true_eq]
  constructor
  · rintro ⟨⟨⟨hold, ⟨hmem, hbutton⟩, hframe⟩, hlt⟩, hleast⟩
    refine ⟨hlt, ⟨hold, hmem, hbutton, hframe⟩, ?_⟩
    rintro ⟨earlier, hmem', hbutton', hbefore⟩
    have hle := hleast _ ⟨⟨earlier, ⟨hmem', hbutton'⟩, rfl⟩, hbefore.trans hlt⟩
    exact absurd hbefore (Nat.not_lt.mpr hle)
  · rintro ⟨hlt, ⟨hold, hmem, hbutton, hframe⟩, hnone⟩
    refine ⟨⟨⟨hold, ⟨hmem, hbutton⟩, hframe⟩, hlt⟩, ?_⟩
    rintro other ⟨⟨later, ⟨hmem', hbutton'⟩, rfl⟩, -⟩
    exact Nat.not_lt.mp fun hbefore => hnone ⟨later, hmem', hbutton', hbefore⟩

theorem exists_heldFrom? {hold : Hold} (hmem : hold ∈ holds) (hlt : hold.frame.toNat < frames) :
    ∃ first, heldFrom? holds frames hold.button = some first := by
  rw [← Option.isSome_iff_exists, Option.isSome_iff_ne_none]
  unfold heldFrom?
  rw [Ne, List.min?_eq_none_iff]
  apply List.ne_nil_of_mem (a := hold.frame.toNat)
  simp only [List.mem_filter, List.mem_map, decide_eq_true_eq]
  exact ⟨⟨hold, ⟨hmem, rfl⟩, rfl⟩, hlt⟩

/-- What has begun has a first frame. -/
theorem begun_iff (hle : frame ≤ frames) : Begun holds frame button ↔
    ∃ first, heldFrom? holds frames button = some first ∧ first < frame := by
  constructor
  · rintro ⟨hold, hmem, rfl, hlt⟩
    obtain ⟨first, hfirst⟩ := exists_heldFrom? hmem (Nat.lt_of_lt_of_le hlt hle)
    obtain ⟨-, -, hnone⟩ := heldFrom?_eq_some_iff.mp hfirst
    refine ⟨first, hfirst, Nat.lt_of_le_of_lt ?_ hlt⟩
    exact Nat.not_lt.mp fun hbefore => hnone ⟨hold, hmem, rfl, hbefore⟩
  · rintro ⟨first, hfirst, hlt⟩
    obtain ⟨-, ⟨hold, hmem, hbutton, rfl⟩, -⟩ := heldFrom?_eq_some_iff.mp hfirst
    exact ⟨hold, hmem, hbutton, hlt⟩

/-- The same schedule means that the same has begun before every frame. -/
theorem sameSchedule_iff : SameSchedule frames holds holds' ↔
    ∀ frame ≤ frames, ∀ button, Begun holds frame button ↔ Begun holds' frame button := by
  constructor
  · intro hsame frame hle button
    rw [begun_iff hle, begun_iff hle, hsame button]
  · intro hsame button
    -- a first frame of one list has begun one frame later, and so in the other list as well
    have hbelow {given other : List Hold} {first : Nat}
        (h : ∀ frame ≤ frames, Begun given frame button ↔ Begun other frame button)
        (hfirst : heldFrom? given frames button = some first) :
        ∃ earlier ≤ first, heldFrom? other frames button = some earlier := by
      have hlt := (heldFrom?_eq_some_iff.mp hfirst).1
      obtain ⟨earlier, hearlier, hle⟩ := (begun_iff hlt).mp
        ((h (first + 1) hlt).mp ((begun_iff hlt).mpr ⟨first, hfirst, Nat.lt_succ_self first⟩))
      exact ⟨earlier, Nat.lt_succ_iff.mp hle, hearlier⟩
    have hleft := fun frame hle => hsame frame hle button
    have hright := fun frame hle => (hsame frame hle button).symm
    cases hfirst : heldFrom? holds frames button with
    | some first =>
        obtain ⟨second, hsecond, hother⟩ := hbelow hleft hfirst
        obtain ⟨third, hthird, hagain⟩ := hbelow hright hother
        rw [hfirst, Option.some.injEq] at hagain
        rw [hother, Option.some.injEq]
        omega
    | none =>
        cases hother : heldFrom? holds' frames button with
        | none => rfl
        | some second =>
            obtain ⟨third, -, hagain⟩ := hbelow hright hother
            rw [hfirst] at hagain
            cases hagain

theorem sameSchedule_of_perm (h : holds.Perm holds') : SameSchedule frames holds holds' := by
  rw [sameSchedule_iff]
  intro frame _ button
  unfold Begun
  simp only [h.mem_iff]

/-- A hold that has begun already, or that never begins, asks for nothing new. -/
theorem sameSchedule_cons {hold : Hold} (h : ∀ frame ≤ frames, hold.frame.toNat < frame →
    Begun holds frame hold.button) : SameSchedule frames (hold :: holds) holds := by
  rw [sameSchedule_iff]
  intro frame hle button
  constructor
  · rintro ⟨other, hmem, rfl, hlt⟩
    rcases List.mem_cons.mp hmem with rfl | hmem
    · exact h frame hle hlt
    · exact ⟨other, hmem, rfl, hlt⟩
  · rintro ⟨other, hmem, hbutton, hlt⟩
    exact ⟨other, List.mem_cons_of_mem _ hmem, hbutton, hlt⟩

/-! ### Runs -/

theorem mem_buttonsFrom_iff : button ∈ buttonsFrom holds frame ↔
    ∃ hold ∈ holds, hold.button = button ∧ hold.frame.toNat = frame := by
  unfold buttonsFrom
  simp only [List.mem_map, List.mem_filter, decide_eq_true_eq]
  constructor
  · rintro ⟨hold, ⟨hmem, hframe⟩, hbutton⟩
    exact ⟨hold, hmem, hbutton, hframe⟩
  · rintro ⟨hold, hmem, hbutton, hframe⟩
    exact ⟨hold, ⟨hmem, hframe⟩, hbutton⟩

theorem begun_succ_iff :
    Begun holds (frame + 1) button ↔ Begun holds frame button ∨ button ∈ buttonsFrom holds frame := by
  rw [mem_buttonsFrom_iff]
  unfold Begun
  constructor
  · rintro ⟨hold, hmem, hbutton, hlt⟩
    rcases Nat.lt_succ_iff_lt_or_eq.mp hlt with hbefore | hnow
    · exact .inl ⟨hold, hmem, hbutton, hbefore⟩
    · exact .inr ⟨hold, hmem, hbutton, hnow⟩
  · rintro (⟨hold, hmem, hbutton, hbefore⟩ | ⟨hold, hmem, hbutton, hnow⟩)
    · exact ⟨hold, hmem, hbutton, Nat.lt_succ_of_lt hbefore⟩
    · exact ⟨hold, hmem, hbutton, Nat.lt_succ_of_le hnow.le⟩

/-- Presses of the same buttons, but for some that are held already, make consoles that are the same
    but for their notes. -/
theorem alike_foldl_press {buttons buttons' : List Button} {c : Console}
    (h : ∀ x, c.board.isHeld x = false → (x ∈ buttons ↔ x ∈ buttons')) :
    ∃ old old', Console.Alike old old' (buttons.foldl Console.press c)
      (buttons'.foldl Console.press c) := by
  have hboard := Board.pressAll_eq_of_same h
  rw [← Console.board_foldl_press, ← Console.board_foldl_press] at hboard
  obtain ⟨hcpu, hsettings⟩ := Console.rest_foldl_press buttons c
  obtain ⟨hcpu', hsettings'⟩ := Console.rest_foldl_press buttons' c
  exact ⟨_, _, hcpu.trans hcpu'.symm, ⟨hboard, [], rfl, rfl⟩, hsettings.trans hsettings'.symm⟩

/-- Without their notes such consoles are the same. -/
theorem takeNotes_of_alike {old old' : List Note} {c d : Console} (h : Console.Alike old old' c d) :
    c.takeNotes.2 = d.takeNotes.2 := by
  rcases c with ⟨⟨cpu, ⟨board, notes⟩⟩, settings⟩
  rcases d with ⟨⟨cpu', ⟨board', notes'⟩⟩, settings'⟩
  obtain rfl : cpu = cpu' := h.cpu
  obtain rfl : board = board' := h.board
  obtain rfl : settings = settings' := h.settings
  rfl

/-- A run of frames with either list. Whatever has begun is held, and so the two lists differ before
    a frame only in buttons that are held already. -/
theorem play_congr {limit remaining : Nat} {c : Console}
    (hsame : ∀ f ≤ frame + remaining, ∀ button, Begun holds f button ↔ Begun holds' f button)
    (hheld : ∀ button, Begun holds frame button → c.board.isHeld button = true) :
    play limit holds remaining frame c = play limit holds' remaining frame c := by
  induction remaining generalizing frame c with
  | zero => rfl
  | succ remaining ih =>
      have hbuttons : ∀ x, c.board.isHeld x = false →
          (x ∈ buttonsFrom holds frame ↔ x ∈ buttonsFrom holds' frame) := by
        intro x hfree
        have hnot : ¬ Begun holds frame x := fun hbegun => by
          rw [hheld x hbegun] at hfree
          cases hfree
        have hnot' : ¬ Begun holds' frame x := fun hbegun =>
          hnot ((hsame frame (by omega) x).mpr hbegun)
        have hnext := hsame (frame + 1) (by omega) x
        rwa [begun_succ_iff, begun_succ_iff, or_iff_right hnot, or_iff_right hnot'] at hnext
      obtain ⟨old, old', halike⟩ := alike_foldl_press hbuttons
      obtain ⟨hend, hafter⟩ := halike.runFrame limit
      have hkept := Console.held_runFrame limit
        ((buttonsFrom holds frame).foldl Console.press c)
      unfold play
      cases hleft : ((buttonsFrom holds frame).foldl Console.press c).runFrame limit with
      | mk result next =>
          cases hright :
              ((buttonsFrom holds' frame).foldl Console.press c).runFrame limit with
          | mk result' next' =>
              rw [hleft, hright] at hend hafter
              rw [hleft] at hkept
              obtain rfl : result = result' := hend
              cases result with
              | fault fault => rfl
              | unfinished => rfl
              | done =>
                  have hnext : next.takeNotes.2 = next'.takeNotes.2 := takeNotes_of_alike hafter
                  dsimp only
                  rw [← hnext]
                  apply ih
                  · intro f hf
                    exact hsame f (by omega)
                  · intro button hbegun
                    have hpressed : next.board.isHeld button =
                        (c.board.pressAll (buttonsFrom holds frame)).isHeld button := by
                      rw [← Console.board_foldl_press]
                      exact Board.isHeld_of_held hkept button
                    have hboard : next.takeNotes.2.board = next.board := rfl
                    rw [hboard, hpressed, Board.isHeld_pressAll, Bool.or_eq_true, decide_eq_true_eq]
                    exact (begun_succ_iff.mp hbegun).imp_left (hheld button)

/-- Two runs that agree in everything but their holds, and whose holds give each button the same first
    frame among those that are run. -/
structure SameCourse (a a' : Arguments) : Prop where
  romPath : a.romPath = a'.romPath
  frames : a.frames = a'.frames
  outPath : a.outPath = a'.outPath
  schedule : SameSchedule a.frames.toNat a.holds a'.holds

variable {a a' : Arguments}

theorem picture_congr (h : SameCourse a a') (limit : Nat) (rom : Array UInt8) :
    picture limit rom a = picture limit rom a' := by
  unfold picture
  rw [h.romPath, ← h.frames]
  cases (Console.powerOn rom {}).1 with
  | error e => rfl
  | ok c =>
      have hplay : play limit a.holds a.frames.toNat 0 c = play limit a'.holds a.frames.toNat 0 c := by
        apply play_congr
        · rw [Nat.zero_add]
          exact sameSchedule_iff.mp h.schedule
        · rintro button ⟨hold, -, -, hlt⟩
          exact absurd hlt (Nat.not_lt_zero _)
      dsimp only
      rw [hplay]

theorem run_congr {m : Type → Type} [Monad m] [Files m] (h : SameCourse a a') (limit : Nat)
    (hpos : a.frames ≠ 0) : (run limit a : m (Except Stop Unit)) = run limit a' := by
  have hpicture (rom : Array UInt8) := picture_congr h limit rom
  have hpos' : a'.frames ≠ 0 := h.frames ▸ hpos
  unfold run
  simp only [hpos, hpos', false_and, if_false, hpicture, h.romPath, h.outPath]

/-- The holds of a run form a set. For every cartridge, every limit on the steps of a frame and every
    number of frames but zero, two runs that agree in everything but their holds, and whose holds give
    each button the same first frame among those that are run, end in the same way and write the same
    file. So two calls of the program that ask for such runs have the same outcome, however it reads
    its arguments. In particular the order of the holds does not matter, nor does a later hold of a
    button that is held already, nor one that begins after the run. -/
theorem holds_form_a_set :
    (∀ {m : Type → Type} [Monad m] [Files m] (limit : Nat) (a a' : Arguments), a.frames ≠ 0 →
      SameCourse a a' → (run limit a : m (Except Stop Unit)) = run limit a') ∧
    (∀ {m : Type → Type} [Monad m] [Files m] (parse : List String → Except UsageError Request)
      (limit : Nat) (arguments arguments' : List String) (a a' : Arguments),
      parse arguments = .ok (.run a) → parse arguments' = .ok (.run a') → a.frames ≠ 0 →
      SameCourse a a' →
      (execute parse limit arguments : m (Option Outcome)) = execute parse limit arguments') ∧
    ∀ (frames : Nat) (holds : List Hold),
      (∀ holds' : List Hold, holds.Perm holds' → SameSchedule frames holds holds') ∧
      (∀ hold : Hold, (∃ earlier ∈ holds, earlier.button = hold.button ∧
          earlier.frame.toNat ≤ hold.frame.toNat) → SameSchedule frames (hold :: holds) holds) ∧
      ∀ hold : Hold, frames ≤ hold.frame.toNat → SameSchedule frames (hold :: holds) holds := by
  refine ⟨?run, ?execute, fun frames holds => ⟨fun holds' => sameSchedule_of_perm, ?held, ?late⟩⟩
  case run =>
    intro m _ _ limit a a' hpos hcourse
    exact run_congr hcourse limit hpos
  case execute =>
    intro m _ _ parse limit arguments arguments' a a' hparse hparse' hpos hcourse
    have hrun : (run limit a : m (Except Stop Unit)) = run limit a' := run_congr hcourse limit hpos
    unfold execute
    rw [hparse, hparse']
    dsimp only
    rw [hrun]
  case held =>
    rintro hold ⟨earlier, hmem, hbutton, hbefore⟩
    exact sameSchedule_cons fun frame _ hlt => ⟨earlier, hmem, hbutton, by omega⟩
  case late =>
    intro hold hlate
    exact sameSchedule_cons fun frame hle hlt => absurd hlt (by omega)

/-- Two calls that hold A from the first frame on and B from the second. -/
theorem holds_form_a_set_shuffled :
    Request.parse ["rom.gb", "2", "out.rgb", "--hold", "a@0", "--hold", "b@1"] =
      .ok (.run ⟨"rom.gb", 2, "out.rgb", [⟨.a, 0⟩, ⟨.b, 1⟩]⟩) ∧
    Request.parse ["--hold=B@1", "rom.gb", "--hold=start@2", "2", "--hold=a@0", "out.rgb",
      "--hold=a@1"] =
      .ok (.run ⟨"rom.gb", 2, "out.rgb", [⟨.b, 1⟩, ⟨.start, 2⟩, ⟨.a, 0⟩, ⟨.a, 1⟩]⟩) ∧
    SameSchedule 2 [⟨.a, 0⟩, ⟨.b, 1⟩] [⟨.b, 1⟩, ⟨.start, 2⟩, ⟨.a, 0⟩, ⟨.a, 1⟩] ∧
    (run 70224 ⟨"rom.gb", 2, "out.rgb", [⟨.a, 0⟩, ⟨.b, 1⟩]⟩ :
      StateM Directory (Except Stop Unit)) =
      run 70224 ⟨"rom.gb", 2, "out.rgb", [⟨.b, 1⟩, ⟨.start, 2⟩, ⟨.a, 0⟩, ⟨.a, 1⟩]⟩ ∧
    (execute Request.parse 70224 ["rom.gb", "2", "out.rgb", "--hold", "a@0", "--hold", "b@1"] :
      StateM Directory (Option Outcome)) =
      execute Request.parse 70224 ["--hold=B@1", "rom.gb", "--hold=start@2", "2", "--hold=a@0",
        "out.rgb", "--hold=a@1"] := by
  have hparse : Request.parse ["rom.gb", "2", "out.rgb", "--hold", "a@0", "--hold", "b@1"] =
      .ok (.run ⟨"rom.gb", 2, "out.rgb", [⟨.a, 0⟩, ⟨.b, 1⟩]⟩) := rfl
  have hparse' : Request.parse ["--hold=B@1", "rom.gb", "--hold=start@2", "2", "--hold=a@0",
      "out.rgb", "--hold=a@1"] =
      .ok (.run ⟨"rom.gb", 2, "out.rgb", [⟨.b, 1⟩, ⟨.start, 2⟩, ⟨.a, 0⟩, ⟨.a, 1⟩]⟩) := rfl
  have hsame : SameSchedule 2 [⟨.a, 0⟩, ⟨.b, 1⟩] [⟨.b, 1⟩, ⟨.start, 2⟩, ⟨.a, 0⟩, ⟨.a, 1⟩] := by
    intro button
    cases button <;> rfl
  have hcourse : SameCourse ⟨"rom.gb", 2, "out.rgb", [⟨.a, 0⟩, ⟨.b, 1⟩]⟩
      ⟨"rom.gb", 2, "out.rgb", [⟨.b, 1⟩, ⟨.start, 2⟩, ⟨.a, 0⟩, ⟨.a, 1⟩]⟩ := ⟨rfl, rfl, rfl, hsame⟩
  obtain ⟨hrun, hexecute, -⟩ := holds_form_a_set
  exact ⟨hparse, hparse', hsame, hrun 70224 _ _ (by decide) hcourse,
    hexecute Request.parse 70224 _ _ _ _ hparse hparse' (by decide) hcourse⟩

end Handheld.CommandLine
