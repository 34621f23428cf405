import SearchBox.Form
import SearchBox.Span

/-!
# Simple lists of integers

A list of integers, or one interval of them; unlike in a comma list of spans, the two are not mixed.
An interval stays as its two ends, so that a wide one is never listed unless its members are asked
for.
-/

namespace SearchBox

open Text

/-- Integers one by one, or all from `low` to `high`. -/
inductive IntegerList
  | values (ns : List Int)
  | span (low high : Int)
  deriving DecidableEq, Inhabited

namespace IntegerList

/-- The integer is in the list. -/
def contains (n : Int) : IntegerList → Bool
  | values ns => ns.contains n
  | span low high => low ≤ n && n ≤ high

/-- The list has no integer. -/
def isEmpty : IntegerList → Bool
  | values ns => ns.isEmpty
  | span low high => decide (high < low)

/-- The first integers of the list, at most `count` of them. -/
def take (count : Nat) : IntegerList → List Int
  | values ns => ns.take count
  | span low high =>
    (List.range (min count (high - low + 1).toNat)).map fun (i : Nat) => low + i

/-- All integers of the list. -/
def toList : IntegerList → List Int
  | values ns => ns
  | span low high => (List.range (high - low + 1).toNat).map fun (i : Nat) => low + i

/-! ### Reading -/

/-- The ends of an interval: the first dash behind the first character separates them, or else the
first two dots. -/
def ends? : List Char → Option (List Char × List Char)
  | [] => none
  | c :: rest => (cut '-' rest <|> Token.cutDots rest).map fun (a, b) => (c :: a, b)

/-- Reads the text between brackets, or the whole text when there are none. -/
def readInside (cs : List Char) : Except Error IntegerList :=
  if cs.contains ',' then ((pieces ',' cs).mapM Reader.readInteger).map values
  else
    match ends? cs with
    | some (a, b) =>
      (Reader.readInteger a).bind fun low => (Reader.readInteger b).map fun high => span low high
    | none => (Reader.readInteger cs).map fun n => values [n]

/-- Reads a list or an interval, in brackets or not; no text is the empty list. -/
def read (cs : List Char) : Except Error IntegerList :=
  let cs := erase ' ' cs
  if cs.isEmpty then .ok (values []) else readInside ((Token.enclosed? cs).getD cs)

/-- Reads the text of a box, if it has one. -/
def read? (text : Option String) : Except Error IntegerList :=
  match text with
  | none => .ok (values [])
  | some s => read s.toList

/-- Reads the text of a box and flashes a message into the form when it is refused. -/
def readInto (form : Form) (text : Option String) (name : String) :
    Form × Except Error IntegerList :=
  match read? text with
  | .ok ns => (form, .ok ns)
  | .error e =>
    ((form.flash ("Error: " ++ Form.refusal (text.getD "") name ++ Span.hint)).mark, .error e)

/-- Reads the integers between the first and the last character, whatever these are. -/
def readWithin (cs : List Char) : Except Error (List Int) :=
  let inside := ((erase ' ' cs).drop 1).dropLast
  if inside.isEmpty then .ok [] else (pieces ',' inside).mapM Reader.readInteger

end IntegerList

end SearchBox
