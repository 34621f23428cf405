import SearchBox.Scalar

/-!
# Constraints

A field must either equal a scalar or satisfy a set of operators. An interval sets only the bounds;
the other operators compare a stored array with a set of items, ask for an element that satisfies
operators of its own, or ask for the beginning of a stored string.
-/

namespace SearchBox

/-- Conditions on one field, each present or not. -/
structure Operators where
  /-- The value is at least this. -/
  min : Option Scalar := none
  /-- The value is at most this. -/
  max : Option Scalar := none
  /-- The stored array contains all of these. -/
  contains : Option (List Scalar) := none
  /-- The stored array contains none of these. -/
  excludes : Option (List Scalar) := none
  /-- Everything in the stored array is one of these. -/
  containedIn : Option (List Scalar) := none
  /-- The stored array has all of these as elements. -/
  all : Option (List Scalar) := none
  /-- Some element of the stored array satisfies these operators. -/
  element : Option Operators := none
  /-- The stored string begins so. -/
  start : Option String := none
  deriving Inhabited

namespace Operators

/-- The operators of an interval. -/
def range (min max : Option Scalar) : Operators := { min, max }

/-- The operators of a beginning. -/
def starting (s : String) : Operators := { start := some s }

/-- Equal operators have equal conditions of every kind. -/
def beq : Operators → Operators → Bool
  | ⟨min, max, contains, excludes, containedIn, all, element, start⟩,
    ⟨min', max', contains', excludes', containedIn', all', element', start'⟩ =>
    min == min' && max == max' && contains == contains' && excludes == excludes' &&
      containedIn == containedIn' && all == all' && start == start' &&
      match element, element' with
      | none, none => true
      | some e, some e' => beq e e'
      | _, _ => false

instance : BEq Operators := ⟨beq⟩

/-- No condition is present. -/
def isEmpty (o : Operators) : Bool := o == {}

/-- Only bounds are present. -/
def isRange (o : Operators) : Bool :=
  (o.min.isSome || o.max.isSome) && o == range o.min o.max

/-- The member of an optional condition. -/
def memberOf {α β : Type} (key : String) (value : Option α) (f : α → β) : List (String × β) :=
  match value with
  | none => []
  | some v => [(key, f v)]

/-- The conditions that are present, as a JSON object. -/
def json : Operators → Json
  | ⟨min, max, contains, excludes, containedIn, all, element, start⟩ =>
    let array (items : List Scalar) : Json := .array (Scalar.jsonItems items)
    .object (
      memberOf "$gte" min Scalar.json ++ memberOf "$lte" max Scalar.json ++
      memberOf "$contains" contains array ++ memberOf "$notcontains" excludes array ++
      memberOf "$containedin" containedIn array ++ memberOf "$all" all array ++
      (match element with
        | none => []
        | some e => [("$elemMatch", json e)]) ++
      memberOf "$startswith" start Json.string)

/-- The conditions that are present, written as a JSON object. -/
def jsonText : Operators → String
  | ⟨min, max, contains, excludes, containedIn, all, element, start⟩ =>
    let array (items : List Scalar) : String := Json.bracketed (Scalar.jsonTextItems items)
    Json.braced ((
      memberOf "$gte" min Scalar.jsonText ++ memberOf "$lte" max Scalar.jsonText ++
      memberOf "$contains" contains array ++ memberOf "$notcontains" excludes array ++
      memberOf "$containedin" containedIn array ++ memberOf "$all" all array ++
      (match element with
        | none => []
        | some e => [("$elemMatch", jsonText e)]) ++
      memberOf "$startswith" start Json.quoted).map fun (key, value) => Json.member key value)

end Operators

/-- What a single field must satisfy. -/
inductive Constraint
  | value (v : Scalar)
  | operators (o : Operators)
  deriving Inhabited

namespace Constraint

/-- The constraint of an interval. -/
def range (min max : Option Scalar) : Constraint := operators (.range min max)

/-- Equal values, or equal operators. -/
def beq : Constraint → Constraint → Bool
  | value a, value b => a == b
  | operators a, operators b => a == b
  | _, _ => false

instance : BEq Constraint := ⟨beq⟩

/-- The scalar that the field must equal. -/
def value? : Constraint → Option Scalar
  | value v => some v
  | operators _ => none

/-- The operators that the field must satisfy. -/
def operators? : Constraint → Option Operators
  | value _ => none
  | operators o => some o

/-- The constraint as a JSON value. -/
def json : Constraint → Json
  | value v => v.json
  | operators o => o.json

/-- The constraint written as JSON. -/
def jsonText : Constraint → String
  | value v => v.jsonText
  | operators o => o.jsonText

end Constraint

end SearchBox
