import SearchBox.Range
import SearchBox.Write

/-!
# Stored sequences

Boxes for a column that holds a sequence, searched place by place. The text is a list of parts:
groups in brackets stay whole, and what lies between them is split at commas (`Sequence.parts`). One
part is merged into the query, several become alternatives.

* `Leading` reads `[1,2-4]` as conditions on the first elements of a stored array. It also asks the
  array as a whole for the exact elements and for one element in the first interval, which the
  conditions on the places imply.
* `Beginning` reads `[2,1]` as the beginning of a stored text in which every element is followed by
  a separator.
-/

namespace SearchBox

namespace Sequence

open Text

/-- What the elements of a column are. -/
inductive Element
  | integer
  | text
  deriving DecidableEq, Inhabited

/-- Reads an element. -/
def Element.reader : Element → Reader
  | integer => Reader.integer
  | text => Reader.text

/-- The value can be asked for as an element of an array. -/
def Element.isExact : Element → Scalar → Bool
  | integer, .integer _ => true
  | text, .string s => !s.toList.contains '-' && !s.toList.contains ','
  | _, _ => false

/-- The pieces between commas without blanks around them, as far as something is left. -/
def plainParts (cs : List Char) : List (List Char) :=
  ((pieces ',' cs).map trim).filter fun p => !p.isEmpty

/-- The groups of a text, and the pieces between them. -/
def parts (cs : List Char) : List (List Char) :=
  (Token.splitGroups cs).flatMap fun piece =>
    if Token.opensBracket piece then [piece] else plainParts piece

/-- The text inside of a group; a part that is no group counts as a whole. -/
def inside (part : List Char) : List Char := (Token.enclosed? part).getD part

/-- The constraint that one token compiles to. -/
def constraintOf (read : Reader) (key : String) (token : List Char) : Except Error Constraint :=
  match Range.compile (.plain read) key token with
  | .error e => .error e
  | .ok (.field _ c) => .ok c
  | .ok (.anyOf _) =>
    .error (.misuse ("position '" ++ String.ofList token ++ "' compiled to a disjunction"))

/-- Compiles the parts, and then merges the only one into a query, or sets several as its
alternatives. -/
def absorb (compile : List Char → Except Error Query) : List (List Char) → Write
  | [] => .done
  | [part] => .after (compile part) fun s => .change (·.update s)
  | ps => .after (ps.mapM compile) fun ss => .change (·.setAlternatives ss)

/-- The key of an element. -/
def elementKey (key : String) (i : Int) : String :=
  key ++ "." ++ Number.decimalText i

/-! ### The first elements of an array -/

/-- A column whose elements are counted from `shift`. -/
structure Leading where
  shift : Int
  element : Element

namespace Leading

/-- The condition on the array as a whole. -/
def whole (element : Element) (cs : List Constraint) : Operators :=
  let exact := (cs.filterMap Constraint.value?).filter element.isExact
  { all := if exact.isEmpty then none else some exact
    element := cs.findSome? Constraint.operators? }

/-- The conditions on the elements, and the one on the array if there is any. -/
def ofConstraints (l : Leading) (key : String) (cs : List Constraint) : Query :=
  let fields := cs.zipIdx.map fun (c, i) => (elementKey key (i + l.shift), c)
  let q : Query := { fields := .ofList fields }
  let o := whole l.element cs
  if o.isEmpty then q else q.insert key (.operators o)

/-- A group constrains an element with each of its items, and a bare token only the first one. -/
def compilePart (l : Leading) (key : String) (part : List Char) : Except Error Query :=
  let read := l.element.reader
  if Token.opensBracket part then
    ((pieces ',' (inside part)).mapM (constraintOf read key)).map (l.ofConstraints key)
  else (constraintOf read key part).map (.single (elementKey key l.shift))

/-- Compiles the text of a box. -/
def compile (l : Leading) (key : String) (text : List Char) : Write :=
  absorb (l.compilePart key) (parts text)

end Leading

/-! ### The beginning of a text -/

/-- A column of texts in which every element is followed by the separator. -/
structure Beginning where
  separator : String := " "
  /-- A column with the first element alone, which can be searched for intervals. -/
  firstField : Option String := none
  element : Element := .integer
  /-- Elements in front of the typed ones. -/
  leading : List String := []

namespace Beginning

/-- The wording for an element without text. -/
def emptyMessage : String := "Every count specified must be nonempty."

/-- The wording for an interval. -/
def intervalMessage : String := "Ranges not supported."

/-- A dash stands behind the first character. -/
def hasInnerDash (cs : List Char) : Bool := (cs.drop 1).contains '-'

/-- The elements with the separator behind each. -/
def joined (separator : List Char) (elements : List (List Char)) : List Char :=
  elements.flatMap fun e => e ++ separator

/-- The leading elements as texts. -/
def leadingTexts (b : Beginning) : List (List Char) := b.leading.map String.toList

/-- The condition that the text begins with the leading elements as they are and then the typed
ones in the form in which they are stored. -/
def start (b : Beginning) (typed : List (List Char)) : Except Error Constraint :=
  if (b.leadingTexts ++ typed).any hasInnerDash then .error (.rejected intervalMessage)
  else
    (typed.mapM b.element.reader).map fun values =>
      let elements := b.leadingTexts ++ values.map Scalar.shown
      .operators (.starting (String.ofList (joined b.separator.toList elements)))

/-- The items of a group. A group that names the first element alone is a condition on its column. -/
def compileGroup (b : Beginning) (key : String) (typed : List (List Char)) : Except Error Query :=
  if (b.leadingTexts ++ typed).any List.isEmpty then .error (.rejected emptyMessage)
  else
    match b.firstField, b.leadingTexts ++ typed with
    | some first, [only] => (constraintOf b.element.reader first only).map (.single first)
    | _, _ => (b.start typed).map (.single key)

/-- A group, or a bare token for the first element. -/
def compilePart (b : Beginning) (key : String) (part : List Char) : Except Error Query :=
  let part := trim part
  if part.isEmpty then .error (.rejected emptyMessage)
  else if Token.opensBracket part then
    b.compileGroup key ((pieces ',' (inside part)).map trim)
  else
    match b.firstField with
    | some first => (constraintOf b.element.reader first part).map (.single first)
    | none => (b.start [part]).map (.single key)

/-- Compiles the text of a box. -/
def compile (b : Beginning) (key : String) (text : List Char) : Write :=
  absorb (b.compilePart key) (parts text)

end Beginning

end Sequence

end SearchBox
