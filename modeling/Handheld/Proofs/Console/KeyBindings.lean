/-
Module: Handheld.Proofs.Console.KeyBindings
Purpose: A key map is a finite map from codes to buttons. Which button a code has is told by the
  last edit that names it, no code is bound twice, and the bindings stand in the order in which
  their codes were added, a code that is bound already keeping its place. Histories are given with
  the latest edit first.
Main exports: KeyMap.Edit, KeyMap.replay, KeyMap.BoundTo, KeyMap.AddedAt, KeyMap.LastAddedAt,
  KeyMap.Recalls, KeyMap.recalls_edit, KeyMap.keyMap_of_history
-/
import Handheld.KeyMap

namespace Handheld

namespace KeyMap

/-! ### Edits and histories -/

/-- What can be done to a key map. -/
inductive Edit where
  | bind (code : UInt32) (button : Button)
  | unbind (code : UInt32)
deriving DecidableEq, Repr

/-- The code that an edit names. -/
def Edit.code : Edit → UInt32
  | .bind code _ => code
  | .unbind code => code

/-- The map after an edit. -/
def edit (m : KeyMap) : Edit → KeyMap
  | .bind code button => m.bind code button
  | .unbind code => m.unbind code

/-- The map after a history. -/
def replay (m : KeyMap) : (history : List Edit) → KeyMap
  | [] => m
  | edit :: earlier => (m.replay earlier).edit edit

theorem replay_append (m : KeyMap) (history earlier : List Edit) :
    m.replay (history ++ earlier) = (m.replay earlier).replay history := by
  induction history with
  | nil => rfl
  | cons edit rest ih => exact congrArg (·.edit edit) ih

/-- The last edit that names the code binds it to the button. -/
def BoundTo (history : List Edit) (code : UInt32) (button : Button) : Prop :=
  ∃ later earlier, history = later ++ .bind code button :: earlier ∧
    ∀ edit ∈ later, edit.code ≠ code

/-- The edit that was made after `moment` others binds the code, which had no button before. -/
def AddedAt (history : List Edit) (code : UInt32) (moment : Nat) : Prop :=
  ∃ later button earlier, history = later ++ .bind code button :: earlier ∧
    earlier.length = moment ∧ ∀ other, ¬ BoundTo earlier code other

/-- The last moment at which the code was added. -/
structure LastAddedAt (history : List Edit) (code : UInt32) (moment : Nat) : Prop where
  added : AddedAt history code moment
  last : ∀ other, AddedAt history code other → other ≤ moment

/-- The codes in the order of their bindings. -/
def codes (m : KeyMap) : List UInt32 :=
  m.bindings.map Prod.fst

/-- The map is what a history makes of it. -/
structure Recalls (m : KeyMap) (history : List Edit) : Prop where
  button?_eq_some_iff : ∀ code button,
    m.button? code = some button ↔ BoundTo history code button
  nodup : m.codes.Nodup
  added : ∀ code ∈ m.codes, ∃ moment, LastAddedAt history code moment
  ordered : m.codes.Pairwise fun first second => ∃ moment moment',
    LastAddedAt history first moment ∧ LastAddedAt history second moment' ∧ moment < moment'

/-! ### Single edits -/

section

variable (m : KeyMap) (code : UInt32) (button : Button)

theorem codes_bind : (m.bind code button).codes =
    if code ∈ m.codes then m.codes else m.codes ++ [code] := by
  obtain ⟨entries⟩ := m
  unfold bind codes
  dsimp only
  induction entries with
  | nil => rfl
  | cons entry rest ih =>
      unfold bindIn
      by_cases hentry : entry.1 = code
      · simp [hentry]
      · have hne : code ≠ entry.1 := Ne.symm hentry
        rw [if_neg hentry, List.map_cons, ih]
        by_cases hrest : code ∈ rest.map Prod.fst
        · simp [hrest]
        · simp [hrest, hne]

theorem codes_unbind : (m.unbind code).codes = m.codes.filter (· ≠ code) := by
  unfold unbind codes
  rw [List.filter_map]
  rfl

theorem mem_codes_iff : code ∈ m.codes ↔ ∃ button, m.button? code = some button := by
  unfold codes button?
  rw [← Option.isSome_iff_exists, Option.isSome_map, List.find?_isSome, List.mem_map]
  simp

end

theorem nodup_bind {m : KeyMap} (h : m.codes.Nodup) (code : UInt32) (button : Button) :
    (m.bind code button).codes.Nodup := by
  rw [codes_bind]
  split
  · exact h
  · next habsent =>
    have hapart : ∀ other ∈ m.codes, ∀ last ∈ [code], other ≠ last := by
      rintro other hother last hlast rfl
      rw [List.mem_singleton.mp hlast] at hother
      exact habsent hother
    exact List.nodup_append.mpr ⟨h, by simp, hapart⟩

/-! ### What the last edit adds to a history -/

section

variable {history : List Edit} {code : UInt32} {moment : Nat}

theorem boundTo_cons {edit : Edit} {button : Button} : BoundTo (edit :: history) code button ↔
    edit = .bind code button ∨ (edit.code ≠ code ∧ BoundTo history code button) := by
  constructor
  · rintro ⟨later, earlier, hsplit, hlater⟩
    cases later with
    | nil => exact .inl (List.cons.inj hsplit).1
    | cons first later =>
        obtain ⟨rfl, rfl⟩ := List.cons.inj hsplit
        obtain ⟨hfirst, hrest⟩ := List.forall_mem_cons.mp hlater
        exact .inr ⟨hfirst, later, earlier, rfl, hrest⟩
  · rintro (rfl | ⟨hother, later, earlier, rfl, hlater⟩)
    · exact ⟨[], history, rfl, by simp⟩
    · exact ⟨edit :: later, earlier, rfl, List.forall_mem_cons.mpr ⟨hother, hlater⟩⟩

theorem AddedAt.lt (h : AddedAt history code moment) : moment < history.length := by
  obtain ⟨later, button, earlier, rfl, rfl, -⟩ := h
  rw [List.length_append, List.length_cons]
  omega

theorem addedAt_cons {edit : Edit} : AddedAt (edit :: history) code moment ↔
    AddedAt history code moment ∨
      (moment = history.length ∧ (∃ button, edit = .bind code button) ∧
        ∀ other, ¬ BoundTo history code other) := by
  constructor
  · rintro ⟨later, button, earlier, hsplit, hmoment, habsent⟩
    cases later with
    | nil =>
        obtain ⟨rfl, rfl⟩ := List.cons.inj hsplit
        exact .inr ⟨hmoment.symm, ⟨button, rfl⟩, habsent⟩
    | cons first later =>
        obtain ⟨rfl, rfl⟩ := List.cons.inj hsplit
        exact .inl ⟨later, button, earlier, rfl, hmoment, habsent⟩
  · rintro (⟨later, button, earlier, rfl, hmoment, habsent⟩ | ⟨hmoment, ⟨button, rfl⟩, habsent⟩)
    · exact ⟨edit :: later, button, earlier, rfl, hmoment, habsent⟩
    · exact ⟨[], button, history, rfl, hmoment.symm, habsent⟩

/-- An edit that does not add the code leaves its moment. -/
theorem LastAddedAt.cons {edit : Edit} (h : LastAddedAt history code moment)
    (hedit : ∀ button, edit = .bind code button → ∃ other, BoundTo history code other) :
    LastAddedAt (edit :: history) code moment where
  added := addedAt_cons.mpr (.inl h.added)
  last other hother := by
    rcases addedAt_cons.mp hother with hbefore | ⟨-, ⟨button, hbind⟩, habsent⟩
    · exact h.last other hbefore
    · obtain ⟨bound, hbound⟩ := hedit button hbind
      exact absurd hbound (habsent bound)

/-- An edit that adds the code is its moment. -/
theorem lastAddedAt_bind {button : Button} (h : ∀ other, ¬ BoundTo history code other) :
    LastAddedAt (.bind code button :: history) code history.length where
  added := addedAt_cons.mpr (.inr ⟨rfl, ⟨button, rfl⟩, h⟩)
  last _ hother := Nat.le_of_lt_succ hother.lt

end

/-! ### Every edit keeps the record -/

theorem recalls_empty : empty.Recalls [] where
  button?_eq_some_iff code button := by
    simp [empty, button?, BoundTo]
  nodup := List.nodup_nil
  added code hcode := nomatch hcode
  ordered := .nil

section

variable {m : KeyMap} {history : List Edit} (h : m.Recalls history)
include h

theorem Recalls.bound_iff (code : UInt32) :
    (∃ button, BoundTo history code button) ↔ code ∈ m.codes := by
  rw [mem_codes_iff]
  exact exists_congr fun button => (h.button?_eq_some_iff code button).symm

/-- No edit adds a code that is bound, so its moment stays. -/
theorem Recalls.added_cons (edit : Edit) {code : UInt32} (hcode : code ∈ m.codes) {moment : Nat}
    (hmoment : LastAddedAt history code moment) : LastAddedAt (edit :: history) code moment :=
  hmoment.cons fun _ _ => (h.bound_iff code).mpr hcode

theorem Recalls.ordered_cons (edit : Edit) :
    m.codes.Pairwise fun first second => ∃ moment moment',
      LastAddedAt (edit :: history) first moment ∧
        LastAddedAt (edit :: history) second moment' ∧ moment < moment' := by
  refine h.ordered.imp_of_mem ?_
  rintro first second hfirst hsecond ⟨moment, moment', hmoment, hmoment', hlt⟩
  exact ⟨moment, moment', h.added_cons edit hfirst hmoment, h.added_cons edit hsecond hmoment', hlt⟩

theorem Recalls.bind (code : UInt32) (button : Button) :
    (m.bind code button).Recalls (.bind code button :: history) where
  button?_eq_some_iff other bound := by
    have hnames : (Edit.bind code button).code = code := rfl
    rw [button?_bind, boundTo_cons, ← h.button?_eq_some_iff, hnames]
    by_cases hother : other = code
    · simp [hother]
    · simp [hother, Ne.symm hother]
  nodup := nodup_bind h.nodup code button
  added other hother := by
    by_cases hcode : other ∈ m.codes
    · obtain ⟨moment, hmoment⟩ := h.added other hcode
      exact ⟨moment, h.added_cons _ hcode hmoment⟩
    · obtain rfl : other = code := by
        rw [codes_bind] at hother
        split at hother
        · exact absurd hother hcode
        · simpa [hcode] using hother
      exact ⟨history.length, lastAddedAt_bind fun bound hbound =>
        hcode ((h.bound_iff other).mp ⟨bound, hbound⟩)⟩
  ordered := by
    rw [codes_bind]
    split
    · exact h.ordered_cons _
    · next habsent =>
      -- every code that was there before has been added by an earlier edit
      refine List.pairwise_append.mpr ⟨h.ordered_cons _, List.pairwise_singleton _ _, ?_⟩
      intro first hfirst last hlast
      rw [List.mem_singleton.mp hlast]
      obtain ⟨moment, hmoment⟩ := h.added first hfirst
      exact ⟨moment, history.length, h.added_cons _ hfirst hmoment,
        lastAddedAt_bind fun bound hbound => habsent ((h.bound_iff code).mp ⟨bound, hbound⟩),
        hmoment.added.lt⟩

theorem Recalls.unbind (code : UInt32) : (m.unbind code).Recalls (.unbind code :: history) where
  button?_eq_some_iff other bound := by
    have hnames : (Edit.unbind code).code = code := rfl
    rw [button?_unbind, boundTo_cons, ← h.button?_eq_some_iff, hnames]
    by_cases hother : other = code
    · simp [hother]
    · simp [hother, Ne.symm hother]
  nodup := by
    rw [codes_unbind]
    exact h.nodup.sublist List.filter_sublist
  added other hother := by
    rw [codes_unbind] at hother
    have hcode : other ∈ m.codes := (List.mem_filter.mp hother).1
    obtain ⟨moment, hmoment⟩ := h.added other hcode
    exact ⟨moment, h.added_cons _ hcode hmoment⟩
  ordered := by
    rw [codes_unbind]
    exact (h.ordered_cons _).sublist List.filter_sublist

/-- What one edit preserves. -/
theorem recalls_edit (edit : Edit) : (m.edit edit).Recalls (edit :: history) := by
  cases edit with
  | bind code button => exact h.bind code button
  | unbind code => exact h.unbind code

end

/-- What a whole history preserves. -/
theorem recalls_replay (history : List Edit) : (empty.replay history).Recalls history := by
  induction history with
  | nil => exact recalls_empty
  | cons edit earlier ih => exact recalls_edit ih edit

/-! ### Both first maps -/

/-- How the standard map comes about. -/
def standardHistory : List Edit :=
  [.bind 16 .select, .bind 13 .start, .bind 88 .b, .bind 90 .a, .bind 40 .down, .bind 39 .right,
    .bind 38 .up, .bind 37 .left]

theorem replay_standardHistory : empty.replay standardHistory = standard := by
  decide

/-- The key map after every history of edits, from the empty map and from the standard one, whose
    bindings count as made before. A code has the button of its last binding if it was not unbound
    since, and no button otherwise; no code stands twice in the bindings; and they are in the order
    in which the codes were last added while they had no button. -/
theorem keyMap_of_history (history : List Edit) :
    (empty.replay history).Recalls history ∧
      (standard.replay history).Recalls (history ++ standardHistory) := by
  constructor
  · exact recalls_replay history
  · rw [← replay_standardHistory, ← replay_append]
    exact recalls_replay (history ++ standardHistory)

end KeyMap

end Handheld
