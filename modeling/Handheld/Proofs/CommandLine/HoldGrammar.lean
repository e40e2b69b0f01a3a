/-
Module: Handheld.Proofs.CommandLine.HoldGrammar
Purpose: The grammar of a hold, as a user writes it. A text is read if and only if it is the name of a
  button in any case, an `@` and a numeral that a frame can have; any other text is refused for the
  first of its parts that is at fault.
Main exports: Text.Numeral, Text.natural_eq_ok_iff, Button.Names, Button.parse_eq_ok_iff,
  CommandLine.Hold.Written, CommandLine.Hold.Fault, CommandLine.Hold.parse_grammar
-/
import Handheld.CommandLine.Hold
import Mathlib.Data.List.Forall2
import Mathlib.Data.Nat.Digits.Defs

namespace Handheld

/-! ### Numerals -/

namespace Text

/-- The number that decimal digits stand for, the highest of them first. -/
def valueOf (digits : List Char) : Nat :=
  Nat.ofDigits 10 (digits.reverse.map fun c => c.toNat - '0'.toNat)

/-- A numeral: one or more of the ten ASCII digits, with or without a plus sign in front. -/
inductive Numeral : List Char → Nat → Prop where
  | plain {digits : List Char} (nonempty : digits ≠ []) (hdigits : ∀ c ∈ digits, c.isDigit = true) :
      Numeral digits (valueOf digits)
  | signed {digits : List Char} (nonempty : digits ≠ [])
      (hdigits : ∀ c ∈ digits, c.isDigit = true) : Numeral ('+' :: digits) (valueOf digits)

variable {limit value n : Nat} {above : NumberError} {c : Char} {cs : List Char}

theorem valueOf_cons :
    valueOf (c :: cs) = 10 ^ cs.length * (c.toNat - '0'.toNat) + valueOf cs := by
  unfold valueOf
  rw [List.reverse_cons, List.map_append, Nat.ofDigits_append, List.length_map, List.length_reverse,
    Nat.add_comm]
  exact congrArg (10 ^ cs.length * · + _) Nat.ofDigits_singleton

/-- Digits continue a number exactly if the number they lead to is within the limit. No number on the
    way there is larger. -/
theorem continued_eq_ok_iff (within : value ≤ limit) : continued limit above value cs = .ok n ↔
    (∀ c ∈ cs, c.isDigit = true) ∧ n = 10 ^ cs.length * value + valueOf cs ∧ n ≤ limit := by
  induction cs generalizing value with
  | nil =>
      have hvalue : 10 ^ ([] : List Char).length * value + valueOf [] = value := by
        simp [valueOf]
      rw [hvalue, continued, Except.ok.injEq]
      constructor
      · rintro rfl
        exact ⟨List.forall_mem_nil _, rfl, within⟩
      · rintro ⟨-, rfl, -⟩
        rfl
  | cons c rest ih =>
      rw [continued, digit?]
      by_cases hdigit : c.isDigit = true
      · have hvalue : 10 ^ (c :: rest).length * value + valueOf (c :: rest) =
            10 ^ rest.length * (10 * value + (c.toNat - '0'.toNat)) + valueOf rest := by
          rw [valueOf_cons, List.length_cons, Nat.pow_succ]
          ring
        rw [hvalue, if_pos hdigit, List.forall_mem_cons]
        dsimp only
        split
        · next fits =>
          rw [ih fits]
          simp only [hdigit, true_and]
        · next exceeds =>
          have hgrows := Nat.le_mul_of_pos_left (10 * value + (c.toNat - '0'.toNat))
            (Nat.pow_pos (n := rest.length) (by decide : 0 < 10))
          constructor
          · intro hread
            cases hread
          · rintro ⟨-, rfl, hle⟩
            omega
      · rw [if_neg hdigit]
        constructor
        · intro hread
          cases hread
        · rintro ⟨hall, -⟩
          exact absurd (hall c List.mem_cons_self) hdigit

theorem digits_eq_ok_iff : digits limit above cs = .ok n ↔
    cs ≠ [] ∧ (∀ c ∈ cs, c.isDigit = true) ∧ n = valueOf cs ∧ n ≤ limit := by
  cases cs with
  | nil =>
      constructor
      · intro hread
        cases hread
      · rintro ⟨hne, -⟩
        exact absurd rfl hne
  | cons c rest =>
      rw [digits, continued_eq_ok_iff (Nat.zero_le _), Nat.mul_zero, Nat.zero_add]
      · exact (and_iff_right (List.cons_ne_nil c rest)).symm
      · exact List.cons_ne_nil c rest

/-- Digits without a sign are a numeral of their own. -/
theorem numeral_iff_of_ne (h : ∀ rest, cs ≠ '+' :: rest) :
    Numeral cs n ↔ cs ≠ [] ∧ (∀ c ∈ cs, c.isDigit = true) ∧ n = valueOf cs := by
  constructor
  · intro hnumeral
    cases hnumeral with
    | plain nonempty hdigits => exact ⟨nonempty, hdigits, rfl⟩
    | signed => exact absurd rfl (h _)
  · rintro ⟨nonempty, hdigits, rfl⟩
    exact .plain nonempty hdigits

/-- A plus sign is no digit. -/
theorem numeral_signed_iff : Numeral ('+' :: cs) n ↔
    cs ≠ [] ∧ (∀ c ∈ cs, c.isDigit = true) ∧ n = valueOf cs := by
  constructor
  · intro hnumeral
    cases hnumeral with
    | plain _ hdigits => exact absurd (hdigits '+' List.mem_cons_self) (by decide)
    | signed nonempty hdigits => exact ⟨nonempty, hdigits, rfl⟩
  · rintro ⟨nonempty, hdigits, rfl⟩
    exact .signed nonempty hdigits

/-- A text is read as a number if and only if it is a numeral of that number, within the limit. -/
theorem natural_eq_ok_iff : natural limit cs = .ok n ↔ Numeral cs n ∧ n ≤ limit := by
  unfold natural
  split
  · rw [numeral_iff_of_ne fun _ => (List.cons_ne_nil _ _).symm]
    simp
  · rw [digits_eq_ok_iff, numeral_signed_iff]
    tauto
  · next hsign =>
    rw [digits_eq_ok_iff, numeral_iff_of_ne fun rest heq => hsign rest heq]
    tauto

end Text

/-! ### Names of buttons -/

/-- Two letters are the same but that the first may be the capital. Only ASCII letters have one. -/
def SameLetter (c letter : Char) : Prop :=
  c = letter ∨ 'A' ≤ c ∧ c ≤ 'Z' ∧ letter.toNat = c.toNat + 32

/-- A text names a button: it is the key of the button, up to the case of ASCII letters. -/
def Button.Names (name : String) (button : Button) : Prop :=
  List.Forall₂ SameLetter name.toList button.key.toList

theorem toLower_eq_iff {c letter : Char} (h : letter.isUpper = false) :
    c.toLower = letter ↔ SameLetter c letter := by
  have hsame (x y : Char) : x = y ↔ x.toNat = y.toNat := Char.ext_iff.trans UInt32.toNat_inj.symm
  unfold SameLetter
  delta Char.toLower
  split
  · next hupper =>
    have hne : c ≠ letter := by
      rintro rfl
      exact absurd (decide_eq_true hupper) (Bool.eq_false_iff.mp h)
    have hle : c.toNat ≤ 90 := hupper.2
    have hlowered : (c.val + ('a'.val - 'A'.val)).toNat = c.toNat + 32 :=
      (UInt32.toNat_add _ _).trans (Nat.mod_eq_of_lt (Nat.lt_of_le_of_lt (Nat.add_le_add_right hle 32)
        (by decide)))
    have hnumber : (c.val + ('a'.val - 'A'.val)).toNat = letter.toNat ↔
        letter.toNat = c.toNat + 32 := by
      rw [hlowered]
      exact eq_comm
    rw [hsame]
    refine hnumber.trans ⟨fun heq => .inr ⟨hupper.1, hupper.2, heq⟩, ?_⟩
    rintro (heq | ⟨-, -, heq⟩)
    · exact absurd heq hne
    · exact heq
  · next hother =>
    refine ⟨.inl, ?_⟩
    rintro (heq | ⟨low, high, -⟩)
    · exact heq
    · exact absurd ⟨low, high⟩ hother

theorem map_toLower_eq_iff {cs letters : List Char}
    (h : ∀ letter ∈ letters, letter.isUpper = false) :
    cs.map Char.toLower = letters ↔ List.Forall₂ SameLetter cs letters := by
  induction letters generalizing cs with
  | nil => rw [List.map_eq_nil_iff, List.forall₂_nil_right_iff]
  | cons letter rest ih =>
      obtain ⟨hfirst, hrest⟩ := List.forall_mem_cons.mp h
      cases cs with
      | nil => simp
      | cons c cs =>
          rw [List.map_cons, List.cons.injEq, List.forall₂_cons, toLower_eq_iff hfirst, ih hrest]

namespace Button

variable {name : String} {button : Button}

theorem names_iff : button.Names name ↔ name.toList.map Char.toLower = button.key.toList := by
  have hall : button.key.toList.all (!·.isUpper) = true := by
    cases button <;> decide
  have hlower : ∀ letter ∈ button.key.toList, letter.isUpper = false := by
    simpa using hall
  exact (map_toLower_eq_iff hlower).symm

theorem asciiLower_eq_key_iff : asciiLower name = button.key ↔ button.Names name := by
  rw [names_iff, asciiLower]
  constructor
  · intro heq
    rw [← heq, String.toList_ofList]
  · intro heq
    rw [heq, String.ofList_toList]

/-- No two buttons have the same key. -/
theorem key_injective {x y : Button} (h : x.key = y.key) : x = y := by
  revert h
  cases x <;> cases y <;> decide

theorem mem_all (button : Button) : button ∈ all := by
  cases button <;> decide

/-- No text names two buttons. -/
theorem Names.unique {other : Button} (h : button.Names name) (h' : other.Names name) :
    button = other :=
  key_injective ((asciiLower_eq_key_iff.mpr h).symm.trans (asciiLower_eq_key_iff.mpr h'))

/-- A text is read as the button that it names, or else refused with its ASCII letters lowered. -/
theorem parse_cases (name : String) :
    (∃ button, Button.parse name = .ok button ∧ button.Names name) ∨
      Button.parse name = .error ⟨asciiLower name⟩ ∧ ∀ button : Button, ¬ button.Names name := by
  unfold Button.parse
  dsimp only
  cases hfound : all.find? (·.key == asciiLower name) with
  | some button =>
      have hkey := List.find?_some hfound
      exact .inl ⟨button, rfl, asciiLower_eq_key_iff.mp (beq_iff_eq.mp hkey).symm⟩
  | none =>
      refine .inr ⟨rfl, fun button hnames => ?_⟩
      have hother := List.find?_eq_none.mp hfound button (mem_all button)
      exact hother (beq_iff_eq.mpr (asciiLower_eq_key_iff.mpr hnames).symm)

theorem parse_of_names (h : button.Names name) : Button.parse name = .ok button := by
  rcases parse_cases name with ⟨other, hparse, hnames⟩ | ⟨-, hnone⟩
  · rw [hparse, hnames.unique h]
  · exact absurd h (hnone button)

theorem parse_of_unknown (h : ∀ button : Button, ¬ button.Names name) :
    Button.parse name = .error ⟨asciiLower name⟩ := by
  rcases parse_cases name with ⟨button, -, hnames⟩ | ⟨hparse, -⟩
  · exact absurd hnames (h button)
  · exact hparse

/-- The name of a button has no mark in it. -/
theorem Names.not_mem (h : button.Names name) : '@' ∉ name.toList := by
  intro hmem
  have hlowered : '@' ∈ name.toList.map Char.toLower := List.mem_map_of_mem (f := Char.toLower) hmem
  rw [names_iff.mp h] at hlowered
  revert hlowered
  cases button <;> decide

end Button

/-! ### Holds -/

namespace CommandLine.Hold

/-- A text is a way to write a hold: a name of its button, an `@` and a numeral of its frame. -/
def Written (s : String) (hold : Hold) : Prop :=
  ∃ name number : String, s = name ++ "@" ++ number ∧ hold.button.Names name ∧
    Text.Numeral number.toList hold.frame.toNat

/-- Why a text is refused, with the complaint about it: for the first of the three parts that is at
    fault. What stands in front of the first `@` is meant for the name. -/
inductive Fault (s : String) : HoldError → String → Prop where
  | noSeparator (h : '@' ∉ s.toList) :
      Fault s (.noSeparator s) ("expected BUTTON@FRAME, got `" ++ s ++ "`")
  | button {name number : String} (hsplit : s = name ++ "@" ++ number) (hfirst : '@' ∉ name.toList)
      (hunknown : ∀ button : Button, ¬ button.Names name) :
      Fault s (.button ⟨String.ofList (name.toList.map Char.toLower)⟩)
        ("unknown button `" ++ String.ofList (name.toList.map Char.toLower) ++ "`")
  | frame {name number : String} {button : Button} (hsplit : s = name ++ "@" ++ number)
      (hnames : button.Names name)
      (hnumber : ∀ frame < 2 ^ 32, ¬ Text.Numeral number.toList frame) :
      Fault s (.frame number) ("invalid frame number `" ++ number ++ "`")

/-- Read the two parts of a hold, one after the other. -/
def ofParts (name number : String) : Except HoldError Hold :=
  match Button.parse name with
  | .error unknown => .error (.button unknown)
  | .ok button =>
    match Text.natural lastFrame number.toList with
    | .error _ => .error (.frame number)
    | .ok frame => .ok ⟨button, UInt32.ofNat frame⟩

variable {s : String} {name number : String} {hold : Hold} {e : HoldError}

theorem cutAt_of_split (hsplit : s = name ++ "@" ++ number) (hfirst : '@' ∉ name.toList) :
    cutAt '@' s.toList = some (name.toList, number.toList) := by
  rw [cutAt_eq_some_iff, hsplit, String.toList_append, String.toList_append, List.append_assoc]
  exact ⟨rfl, hfirst⟩

/-- A text with a mark in it falls into two parts at the first. -/
theorem exists_split (h : '@' ∈ s.toList) :
    ∃ name number : String, s = name ++ "@" ++ number ∧ '@' ∉ name.toList := by
  obtain ⟨front, back, hlist, hfirst⟩ := List.eq_append_cons_of_mem h
  refine ⟨String.ofList front, String.ofList back, ?_, ?_⟩
  · rw [← String.toList_inj, hlist]
    simp
  · rwa [String.toList_ofList]

theorem cutAt_of_not_mem (h : '@' ∉ s.toList) : cutAt '@' s.toList = none := by
  cases hcut : cutAt '@' s.toList with
  | none => rfl
  | some parts =>
      obtain ⟨hlist, -⟩ := cutAt_eq_some_iff.mp hcut
      exact absurd (hlist ▸ List.mem_append_right _ List.mem_cons_self) h

theorem parse_of_split (hsplit : s = name ++ "@" ++ number) (hfirst : '@' ∉ name.toList) :
    Hold.parse s = ofParts name number := by
  unfold Hold.parse
  rw [cutAt_of_split hsplit hfirst]
  dsimp only
  rw [String.ofList_toList, String.ofList_toList]
  rfl

theorem parse_of_written (h : Written s hold) : Hold.parse s = .ok hold := by
  obtain ⟨name, number, hsplit, hnames, hnumber⟩ := h
  have hframe : Text.natural lastFrame number.toList = .ok hold.frame.toNat :=
    Text.natural_eq_ok_iff.mpr ⟨hnumber, Nat.le_of_lt_succ hold.frame.toNat_lt⟩
  rw [parse_of_split hsplit hnames.not_mem, ofParts, Button.parse_of_names hnames, hframe]
  dsimp only
  rw [UInt32.ofNat_toNat]

theorem parse_of_fault {complaint : String} (h : Fault s e complaint) :
    Hold.parse s = .error e ∧ e.message = complaint := by
  cases h with
  | noSeparator hmark =>
      refine ⟨?_, rfl⟩
      unfold Hold.parse
      rw [cutAt_of_not_mem hmark]
  | button hsplit hfirst hunknown =>
      refine ⟨?_, rfl⟩
      rw [parse_of_split hsplit hfirst, ofParts, Button.parse_of_unknown hunknown]
      rfl
  | @frame name number button hsplit hnames hnumber =>
      refine ⟨?_, rfl⟩
      rw [parse_of_split hsplit hnames.not_mem, ofParts, Button.parse_of_names hnames]
      cases hframe : Text.natural lastFrame number.toList with
      | error reason => rfl
      | ok frame =>
          obtain ⟨hnumeral, hle⟩ := Text.natural_eq_ok_iff.mp hframe
          exact absurd hnumeral (hnumber frame (Nat.lt_succ_of_le hle))

/-- Every text is one or the other. -/
theorem written_or_fault (s : String) :
    (∃ hold, Written s hold) ∨ ∃ e complaint, Fault s e complaint := by
  by_cases hmark : '@' ∈ s.toList
  case neg => exact .inr ⟨_, _, .noSeparator hmark⟩
  obtain ⟨name, number, hsplit, hfirst⟩ := exists_split hmark
  by_cases hknown : ∃ button : Button, button.Names name
  case neg => exact .inr ⟨_, _, .button hsplit hfirst (not_exists.mp hknown)⟩
  obtain ⟨button, hnames⟩ := hknown
  by_cases hframe : ∃ frame < 2 ^ 32, Text.Numeral number.toList frame
  case neg =>
    exact .inr ⟨_, _, .frame hsplit hnames fun frame hlt hnumeral => hframe ⟨frame, hlt, hnumeral⟩⟩
  obtain ⟨frame, hlt, hnumeral⟩ := hframe
  refine .inl ⟨⟨button, UInt32.ofNat frame⟩, name, number, hsplit, hnames, ?_⟩
  rwa [UInt32.toNat_ofNat_of_lt' hlt]

/-- The grammar of holds. A text is read as a hold if and only if it is written so; and it is refused
    if and only if one of its parts is at fault, for the first of these and with the complaint about
    it. -/
theorem parse_grammar (s : String) :
    (∀ hold, Hold.parse s = .ok hold ↔
      ∃ name number : String, s = name ++ "@" ++ number ∧ hold.button.Names name ∧
        Text.Numeral number.toList hold.frame.toNat) ∧
      ∀ e, Hold.parse s = .error e ↔ Fault s e e.message := by
  refine ⟨fun hold => ⟨fun hread => ?written, parse_of_written⟩,
    fun e => ⟨fun hread => ?fault, fun hfault => (parse_of_fault hfault).1⟩⟩
  case written =>
    rcases written_or_fault s with ⟨other, hwritten⟩ | ⟨e, complaint, hfault⟩
    · rw [parse_of_written hwritten, Except.ok.injEq] at hread
      exact hread ▸ hwritten
    · rw [(parse_of_fault hfault).1] at hread
      cases hread
  case fault =>
    rcases written_or_fault s with ⟨hold, hwritten⟩ | ⟨other, complaint, hfault⟩
    · rw [parse_of_written hwritten] at hread
      cases hread
    · obtain ⟨hrefused, hmessage⟩ := parse_of_fault hfault
      rw [hrefused, Except.error.injEq] at hread
      subst hread
      rwa [hmessage]

/-- Only ASCII letters have a case here: the long s is no way to write the letter s. -/
example : Hold.parse "ſelect@1" = .error (.button ⟨"ſelect"⟩) := by decide +kernel

end CommandLine.Hold

end Handheld
