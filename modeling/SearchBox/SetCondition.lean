import SearchBox.Write

/-!
# Conditions on stored sets

A field may hold an array that is compared with a set of items. A `SetMode` says how: the array has
all the items, none of them, nothing else, or is equal to them. The first three set an operator of
the field and may come together; the last one sets its value. A column that holds a value derived
from the whole set may stand in for an equal array.
-/

namespace SearchBox

/-- How a stored array relates to the items. -/
inductive SetMode
  /-- The array contains every item. -/
  | containsAll
  /-- The array contains none of the items. -/
  | containsNone
  /-- The array contains nothing but items. -/
  | containedIn
  /-- The array equals the items as a set. -/
  | exactly
  deriving DecidableEq, Inhabited

namespace SetMode

/-- The mode that is meant when none is given. -/
def standard : SetMode := containsAll

/-- The name of a mode. -/
def name : SetMode → String
  | containsAll => "include"
  | containsNone => "exclude"
  | containedIn => "subset"
  | exactly => "exactly"

/-- The mode of a name; no name stands for the standard mode. -/
def ofName? (s : String) : Option SetMode :=
  if s = "" then some standard
  else [containsAll, containsNone, containedIn, exactly].find? fun m => m.name = s

/-- The mode of a name, which must be known. -/
def ofName (s : String) : Except Error SetMode :=
  match ofName? s with
  | some m => .ok m
  | none => .error (.misuse ("Unrecognized subset mode '" ++ s ++ "'"))

theorem ofName?_name (m : SetMode) : ofName? m.name = some m := by
  cases m <;> rfl

end SetMode

/-- Items of a set have a total order, and each is a scalar. -/
class SetItem (α : Type) where
  le : α → α → Bool
  scalar : α → Scalar

instance : SetItem Int := ⟨fun a b => decide (a ≤ b), .integer⟩

instance : SetItem String := ⟨fun a b => decide (a ≤ b), .string⟩

/-- A column with a value derived from the whole set. -/
structure DerivedColumn (α : Type) where
  field : String
  derive : List α → Scalar

/-- The product of the items, held within 64 bits at every step. -/
def DerivedColumn.product (items : List Int) : Scalar :=
  .integer (items.foldl (fun acc n => Number.saturated (acc * n)) 1)

namespace SetCondition

variable {α : Type} [SetItem α] [BEq α]

/-- The items as scalars. -/
def scalars (items : List α) : List Scalar := items.map SetItem.scalar

/-- The items in order, each once. -/
def canonical (items : List α) : List α := (items.mergeSort SetItem.le).eraseReps

/-- The field has a value and is asked for operators, or the other way round. -/
def conflict : Error := .conflict "Cannot specify containment and equality simultaneously"

/-- Sets an operator of a field that has no value. -/
def addOperator (set : Operators → Operators) (field : String) : Write := fun q =>
  match q.get? field with
  | none => (q.insert field (.operators (set {})), .ok ())
  | some (.operators o) => (q.insert field (.operators (set o)), .ok ())
  | some (.value _) => (q, .error conflict)

/-- Sets the value of a field that is free. -/
def setValue (items : List α) (field : String) : Write := fun q =>
  if q.contains field then (q, .error conflict)
  else (q.insert field (.value (.list (scalars (canonical items)))), .ok ())

/-- Writes the condition on a field. -/
def apply (mode : SetMode) (column : Option (DerivedColumn α)) (items : List α) (field : String) :
    Write :=
  match mode, column with
  | .containsAll, _ => addOperator ({ · with contains := some (scalars items) }) field
  | .containsNone, _ => addOperator ({ · with excludes := some (scalars items) }) field
  | .containedIn, _ => addOperator ({ · with containedIn := some (scalars items) }) field
  | .exactly, some column => .change (·.insert column.field (.value (column.derive items)))
  | .exactly, none => setValue items field

end SetCondition

end SearchBox
