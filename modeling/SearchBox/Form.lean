import SearchBox.OrderedMap
import SearchBox.Text.Case
import SearchBox.Text.Entity

/-!
# Forms

A form holds the text typed into each box, the messages flashed while it was compiled, and a mark
that some box was refused.
-/

namespace SearchBox

/-- The texts of the boxes in order, the flashed messages, and the error mark. -/
structure Form where
  values : OrderedMap String := .empty
  flashes : List String := []
  marked : Bool := false
  deriving Inhabited

namespace Form

/-- A form with the given texts; a later text of a box overwrites an earlier one. -/
def ofList (values : List (String × String)) : Form := { values := .ofList values }

/-- The text of a box. -/
def get? (f : Form) (field : String) : Option String := f.values.get? field

/-- Puts a text into a box. -/
def set (f : Form) (field text : String) : Form := { f with values := f.values.insert field text }

/-- Takes a box out of the form. -/
def erase (f : Form) (field : String) : Form := { f with values := f.values.erase field }

/-- Adds a message for the user. -/
def flash (f : Form) (message : String) : Form := { f with flashes := f.flashes ++ [message] }

/-- Sets the error mark. -/
def mark (f : Form) : Form := { f with marked := true }

/-- Forgets the messages. -/
def withoutFlashes (f : Form) : Form := { f with flashes := [] }

@[simp] theorem get?_set_self (f : Form) (field text : String) :
    (f.set field text).get? field = some text := by
  simp [set, get?]

@[simp] theorem values_flash (f : Form) (message : String) : (f.flash message).values = f.values :=
  rfl

@[simp] theorem values_mark (f : Form) : f.mark.values = f.values := rfl

/-- The name under which a box is shown when it has no other. -/
def shownName (field : String) : String := String.ofList (Text.capitalized field.toList)

/-- A text of the user inside a message: escaped, and in black. -/
def highlighted (text : String) : String :=
  "<span style='color:black'>" ++ String.ofList (Text.Entity.encode text.toList) ++ "</span>"

/-- The message that the input is not valid for the box of the given name. -/
def refusal (input name : String) : String :=
  highlighted input ++ " is not a valid input for " ++ highlighted name ++ ". "

end Form

end SearchBox
