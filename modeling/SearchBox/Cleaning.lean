import SearchBox.Error
import SearchBox.Token.Grammar

/-!
# Cleaning

What is done to the text of a box before it is compiled. Blanks between two digits are refused
(`checkSpaces`), since removing them would make one number of two. Then angle brackets go away, so
that the text can be shown again in markup, and all blanks unless the box keeps them (`stripped`).
`withDashes` writes intervals with a dash.
-/

namespace SearchBox.Cleaning

open Text

/-- The wording for blanks between digits. -/
def spacesMessage : String :=
  "You have entered spaces in between digits. Please add a comma or delete the spaces."

/-- Refuses blanks between two digits of a raw text. -/
def checkSpaces (raw : List Char) : Except Error Unit :=
  if Token.hasDigitGap raw then .error (.malformed spacesMessage) else .ok ()

/-- The character goes away when a text is cleaned. -/
def isStripped (keepsSpaces : Bool) (c : Char) : Bool :=
  c = '<' || c = '>' || (!keepsSpaces && isBlank c)

/-- The text without angle brackets, and without blanks unless they are kept. -/
def stripped (keepsSpaces : Bool) (raw : List Char) : List Char :=
  raw.filter fun c => !isStripped keepsSpaces c

/-- Intervals are written with a dash in place of two dots, and spaces are dropped. -/
def withDashes (cs : List Char) : List Char := erase ' ' (dashDots cs)

@[simp] theorem stripped_nil (keepsSpaces : Bool) : stripped keepsSpaces [] = [] := rfl

@[simp] theorem withDashes_nil : withDashes [] = [] := rfl

/-- Stripping a second time changes nothing. -/
theorem stripped_stripped (keepsSpaces : Bool) (raw : List Char) :
    stripped keepsSpaces (stripped keepsSpaces raw) = stripped keepsSpaces raw := by
  simp [stripped]

end SearchBox.Cleaning
