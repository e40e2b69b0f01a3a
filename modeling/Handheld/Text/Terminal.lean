/-
Module: Handheld.Text.Terminal
Purpose: Text that may hold control sequences for a terminal, and what is left of it for a reader
  who is none: the sequences and the control characters are taken out, and only the text stays.
Main exports: mark, Sequence, Sequence.next, plain
-/

namespace Handheld.Text

/-- Text that a terminal sets off from the rest. The sequence behind it also ends any sequence that
    the text itself has left open. -/
def mark (text : String) : String :=
  "\x1b[1m" ++ text ++ "\x1b[0m"

/-- How far into a control sequence a reader is. -/
inductive Sequence where
  /-- Outside of any. -/
  | outside
  /-- Behind the escape character. -/
  | escape
  /-- Further on in a short sequence. -/
  | short
  /-- In a sequence that a letter ends. -/
  | control
  /-- In a command to the operating system, which the bell ends. -/
  | command
  /-- At the start of a device control string. -/
  | device
  /-- In the parameters of a device control string. -/
  | parameters
  /-- Behind the parameters of a device control string. -/
  | intermediate
  /-- In a string, which the string terminator ends. -/
  | string
deriving DecidableEq, Repr

/-- Whether a character lies between two others. -/
def between (low high : Nat) (c : Char) : Bool :=
  low ≤ c.toNat && c.toNat ≤ high

/-- The blanks among the control characters, which are shown as they are. -/
def isControlBlank (c : Char) : Bool :=
  c == '\t' || c == '\n' || c == '\x0c' || c == '\r'

/-- Whether a character is shown when it stands outside of sequences. -/
def isShown (c : Char) : Bool :=
  between 0x20 0x7E c || 0x7F < c.toNat || isControlBlank c

/-- Whether a character holds, among its bytes, the one that terminates a string. -/
def holdsTerminator (c : Char) : Bool :=
  (String.utf8EncodeChar c).contains 0x9C

namespace Sequence

/-- Where a reader is behind one more character. The escape character starts a sequence anywhere,
    and two control characters break one off anywhere. -/
def next (s : Sequence) (c : Char) : Sequence :=
  if c == '\x18' || c == '\x1a' then .outside
  else if c == '\x1b' then .escape
  else
    match s with
    | .outside => .outside
    | .escape =>
      if between 0x20 0x2F c then .short
      else if c == '[' then .control
      else if c == ']' then .command
      else if c == 'P' then .device
      else if c == 'X' || c == '^' || c == '_' then .string
      else if between 0x30 0x7E c then .outside
      else .escape
    | .short => if between 0x30 0x7E c then .outside else .short
    | .control => if between 0x40 0x7E c then .outside else .control
    | .command => if c == '\x07' then .outside else .command
    | .device =>
      if between 0x20 0x2F c then .intermediate
      else if between 0x30 0x3F c then .parameters
      else if between 0x40 0x7E c then .string
      else .device
    | .parameters =>
      if between 0x20 0x2F c then .intermediate
      else if between 0x3C 0x7E c then .string
      else .parameters
    | .intermediate => if between 0x30 0x7E c then .string else .intermediate
    | .string => if holdsTerminator c then .outside else .string

/-- Whether a character is shown at this place. A blank is shown also inside a short sequence or one
    that a letter ends. -/
def shows : Sequence → Char → Bool
  | .outside, c => isShown c
  | .escape, c | .short, c | .control, c => isControlBlank c
  | _, _ => false

end Sequence

/-- What is shown of the characters from some place on. Behind a character that is shown, all that
    can be shown is shown, even if it stands in a sequence (`shown` is true); only the next control
    character takes the sequence up again. -/
def plainFrom : Sequence → (shown : Bool) → List Char → List Char
  | _, _, [] => []
  | s, shown, c :: rest =>
    if (if shown then isShown c else s.shows c) then
      c :: plainFrom (if c.toNat < 0x80 then s else .outside) true rest
    else plainFrom (s.next c) false rest

/-- What is left of a text for a reader who is no terminal. -/
def plain (s : String) : String :=
  String.ofList (plainFrom .outside false s.toList)

/-- Text without control characters stays as it is. -/
theorem plainFrom_of_shown {cs : List Char} (all : ∀ c ∈ cs, isShown c = true) (shown : Bool) :
    plainFrom .outside shown cs = cs := by
  induction cs generalizing shown with
  | nil => rfl
  | cons c rest ih =>
    have here := all c (List.mem_cons_self ..)
    have later := ih (fun d mem => all d (List.mem_cons_of_mem c mem)) true
    simp [plainFrom, Sequence.shows, here, later]

end Handheld.Text
