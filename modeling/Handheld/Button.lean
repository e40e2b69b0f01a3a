/-
Module: Handheld.Button
Purpose: The eight buttons and their names.
Main exports: Button, Button.label, UnknownButton, Button.parse
-/

namespace Handheld

/-- The eight buttons: the four directions, then the four actions. -/
inductive Button where
  | right
  | left
  | up
  | down
  | a
  | b
  | select
  | start
deriving DecidableEq, Repr, Inhabited

namespace Button

/-- Every button, the directions first. -/
def all : List Button :=
  [.right, .left, .up, .down, .a, .b, .select, .start]

/-- The display name of a button. -/
def label : Button → String
  | .right => "Right"
  | .left => "Left"
  | .up => "Up"
  | .down => "Down"
  | .a => "A"
  | .b => "B"
  | .select => "Select"
  | .start => "Start"

/-- The name by which a user gives a button, in lower case. -/
def key : Button → String
  | .right => "right"
  | .left => "left"
  | .up => "up"
  | .down => "down"
  | .a => "a"
  | .b => "b"
  | .select => "select"
  | .start => "start"

/-- Whether the button belongs to the direction group. -/
def isDirection : Button → Bool
  | .right | .left | .up | .down => true
  | _ => false

end Button

/-- A text that names no button, with its ASCII letters lowered. -/
structure UnknownButton where
  text : String
deriving DecidableEq, Repr

/-- The complaint about a text that names no button. -/
def UnknownButton.message (e : UnknownButton) : String :=
  "unknown button `" ++ e.text ++ "`"

/-- Text with its ASCII letters in lower case; every other character stays. -/
def asciiLower (s : String) : String :=
  String.ofList (s.toList.map Char.toLower)

/-- The button named by `s`, whatever the case of its ASCII letters. -/
def Button.parse (s : String) : Except UnknownButton Button :=
  let name := asciiLower s
  match Button.all.find? (·.key == name) with
  | some button => .ok button
  | none => .error ⟨name⟩

/-- Both spellings of a button name it. -/
theorem Button.parse_label (button : Button) : Button.parse button.label = .ok button := by
  cases button <;> rfl

end Handheld
