import SearchBox.Form
import SearchBox.Number.Integer
import SearchBox.Text.Blank

/-!
# Paging

A form may say how many results make a page (`count`) and where the results begin (`start`). The count
in use is written back into the form. A negative start counts back from the end of a page: -1 is the
last result of the first page.
-/

namespace SearchBox.Paging

open Number

/-- The count when none is configured. -/
def standardCount : Int := 50

/-- The integer in a text. -/
def integer? (text : String) : Option Int := readInteger? text.toList

/-- The integer in a text with blanks around it. -/
def trimmedInteger? (text : String) : Option Int := readInteger? (Text.trim text.toList)

/-- The number if it is positive. -/
def positive? (n : Int) : Option Int := if 0 < n then some n else none

/-- The count that the form asks for, or the default. -/
def countOf (form : Form) (default : Int) : Int :=
  (((form.get? "count").bind trimmedInteger?).bind positive?).getD default

/-- The count, and the form with the count written into it. -/
def count (form : Form) (default : Int) : Int × Form :=
  let n := countOf form default
  (n, form.set "count" (decimalText n))

/-- A negative start, moved by whole pages so that it lies in the first page or in the one behind
it. -/
def wrapped (count start : Int) : Option Int :=
  (checked (1 - (start + 1) / count)).bind fun pages =>
    (checked (pages * count)).bind fun shift => checked (shift + start)

/-- The place of the first result, or the default when the form does not say or the place does not
fit. -/
def start (form : Form) (default : Int) : Int :=
  match (form.get? "start").bind trimmedInteger?,
      ((form.get? "count").bind integer?).bind positive? with
  | some start, some count => if start < 0 then (wrapped count start).getD default else start
  | _, _ => default

end SearchBox.Paging
