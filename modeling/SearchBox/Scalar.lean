import SearchBox.Json
import SearchBox.OrderedMap

/-!
# Scalars

A `Scalar` is what a field can be compared with: a truth value, a 64-bit integer, a double, an exact
rational, a string, or a list of scalars. `Scalar.shown` is its form inside messages and prefixes,
`Scalar.json` and `Scalar.jsonText` its form in a query. Comparison with `==` is that of the values:
the two zeros are equal, and a NaN differs from itself.
-/

namespace SearchBox

/-- A value of a field. -/
inductive Scalar
  | bool (b : Bool)
  | integer (n : Int)
  | double (x : Number.Double)
  | rational (q : Rat)
  | string (s : String)
  | list (items : List Scalar)
  deriving Inhabited

namespace Scalar

/-! ### Comparison -/

mutual

/-- The scalars are of one kind and have equal values. -/
def beq : Scalar → Scalar → Bool
  | bool a, bool b => a == b
  | integer a, integer b => a == b
  | double a, double b => a == b
  | rational a, rational b => a == b
  | string a, string b => a == b
  | list a, list b => beqItems a b
  | _, _ => false

/-- The lists have equal items at every place. -/
def beqItems : List Scalar → List Scalar → Bool
  | [], [] => true
  | a :: as, b :: bs => beq a b && beqItems as bs
  | _, _ => false

end

instance : BEq Scalar := ⟨beq⟩

/-! ### In messages -/

/-- A rational in lowest terms; a whole one has no denominator. -/
def rationalText (q : Rat) : List Char :=
  if q.den = 1 then Number.decimal q.num
  else Number.decimal q.num ++ '/' :: Nat.toDigits 10 q.den

/-- A double with as few digits as read back the same, without exponent. -/
def doubleShown (x : Number.Double) : List Char :=
  if x.isFinite then x.layout .shown
  else if x.isNaN then "NaN".toList
  else if x.isNegative then "-inf".toList
  else "inf".toList

mutual

/-- The scalar as it is shown to a user. -/
def shown : Scalar → List Char
  | bool b => (Json.boolText b).toList
  | integer n => Number.decimal n
  | double x => doubleShown x
  | rational q => rationalText q
  | string s => s.toList
  | list items => '[' :: List.intercalate [','] (shownItems items) ++ [']']

/-- The items of a list as they are shown. -/
def shownItems : List Scalar → List (List Char)
  | [] => []
  | v :: vs => shown v :: shownItems vs

end

/-! ### In a query -/

mutual

/-- The scalar as a JSON value; a rational is a string. -/
def json : Scalar → Json
  | bool b => .bool b
  | integer n => .integer n
  | double x => if x.isFinite then .double x else .null
  | rational q => .string (String.ofList (rationalText q))
  | string s => .string s
  | list items => .array (jsonItems items)

/-- The items of a list as JSON values. -/
def jsonItems : List Scalar → List Json
  | [] => []
  | v :: vs => json v :: jsonItems vs

end

mutual

/-- The scalar written as JSON. -/
def jsonText : Scalar → String
  | bool b => Json.boolText b
  | integer n => Json.integerText n
  | double x => Json.doubleText x
  | rational q => Json.quoted (String.ofList (rationalText q))
  | string s => Json.quoted s
  | list items => Json.bracketed (jsonTextItems items)

/-- The items of a list written as JSON. -/
def jsonTextItems : List Scalar → List String
  | [] => []
  | v :: vs => jsonText v :: jsonTextItems vs

end

end Scalar

end SearchBox
