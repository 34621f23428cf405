import SearchBox.AliasTable
import SearchBox.Box
import SearchBox.IntegerList
import SearchBox.Occurrence
import SearchBox.Sequence
import SearchBox.SetCondition

/-!
# Ready-made boxes

`Kind` lists the kinds of boxes with their options, `Kind.policy` gives the policy that suits each
kind, and `Kind.compile` what it does with a clean text. A kind reads and checks its text before it
writes, and a set condition also looks at what the query already holds; `assignments` writes each
assignment before it reads the next one.
-/

namespace SearchBox

open Text

/-- What a set box holds. -/
inductive SetItems
  /-- Integers and intervals, at most so many after listing. -/
  | integers (most : Nat)
  /-- Labels with commas between; repeated ones may be told apart by occurrence codes. -/
  | labels (repeats : Bool)
  deriving DecidableEq, Inhabited

/-- A kind of box with its options. -/
inductive Kind
  /-- Unsigned integers, intervals and comma lists of these. -/
  | integers
  /-- Integers, intervals and comma lists of these, all between two bounds. -/
  | boundedIntegers (min max : Int)
  /-- Signed integers, closed intervals and comma lists of these. -/
  | signedIntegers
  /-- Doubles, intervals and comma lists of these. -/
  | doubles
  /-- Unsigned rationals, intervals and comma lists of these. -/
  | rationals
  /-- One signed rational. -/
  | rational
  /-- Unsigned integers in brackets, exactly so many or at most so many. -/
  | integerVector (exactly most : Option Nat)
  /-- Signed rationals in brackets. -/
  | rationalVector
  /-- Integers with or without brackets, stored through a function. -/
  | integerList (store : List Int → Scalar)
  /-- A truth value, stored through a function; some texts stand for no condition. -/
  | truth (blank : List String) (store : Bool → Scalar)
  /-- A truth value that may be unknown, stored as a sign. -/
  | truthOrUnknown
  /-- One of the allowed texts, stored through a function; some texts stand for no condition. -/
  | choice (allowed blank : List String) (store : String → Scalar)
  /-- Any text, stored through a function. -/
  | text (store : String → Scalar)
  /-- Equations such as `a1=3` between elements of a sequence and values. -/
  | assignments (letters : String) (shift : Int) (read : Reader)
  /-- A label or a name of one. -/
  | label (resolve : List Char → Except Error String)
  /-- A condition on a stored set. -/
  | set (items : SetItems) (mode : SetMode) (column : Option (DerivedColumn Int))
  /-- A condition on a stored set whose mode the user has typed. -/
  | setByName (items : SetItems) (mode : String) (column : Option (DerivedColumn Int))
  /-- The first elements of a stored array. -/
  | leading (l : Sequence.Leading)
  /-- The beginning of a stored text. -/
  | beginning (b : Sequence.Beginning)

namespace Kind

/-! ### Policies -/

/-- The clean text is echoed, with dashes for dots. -/
def numberPolicy : Policy := { echoes := true, dashesDots := true }

/-- The clean text is echoed, and errors need no escaping. -/
def vectorPolicy : Policy := { echoes := true, trustsErrors := true }

/-- The policy of a set box. -/
def setPolicy : SetItems → Policy
  | .integers _ => numberPolicy
  | .labels _ => { echoes := true }

/-- The policy that suits a kind. -/
def policy : Kind → Policy
  | integers | boundedIntegers _ _ | signedIntegers | doubles | rationals => numberPolicy
  | rational => { echoes := true }
  | integerVector _ _ | rationalVector => vectorPolicy
  | set items _ _ | setByName items _ _ => setPolicy items
  | _ => {}

/-! ### Numbers -/

/-- The wording for a text that is no list of signed integers. -/
def signedHint : String :=
  "It needs to be an integer (such as -25), a range of integers (such as -5--2 or -3-7), " ++
    "or a comma-separated list of these (such as -4,9,16 or -4-25, 81-121)."

/-- The wording for a text that is no list of doubles. -/
def doubleHint : String :=
  "It needs to be a number (such as 2.5), a range of numbers (such as 2.1-8.7), " ++
    "or a comma-separated list of these (such as 1,2.5 or 0.5-1, 7-)."

/-- The wording for a text that is no list of unsigned rationals. -/
def rationalListHint : String :=
  "It needs to be a non-negative rational number (such as 4/3 or 0.75), " ++
    "a range of these (such as 1/2-3), " ++
    "or a comma-separated list of these (such as 1/2,2/3 or 0-1/2, 3-)."

/-- The wording for a text that is no rational. -/
def rationalHint : String := "It needs to be a rational number (such as -3/4 or 7)."

/-- Holds the text against a grammar and then merges the fragment that it compiles to. -/
def guarded (accepts : List Char → Bool) (hint : String)
    (compile : String → List Char → Except Error Fragment) : Compile := fun text context =>
  if accepts text then .after (compile context.key text) fun f => .change (·.fold f)
  else .fail (.rejected hint)

/-- Reads an integer between two bounds. -/
def boundedInteger (min max : Int) : Reader := fun token =>
  (Reader.readInteger token).bind fun n =>
    if n < min || max < n then
      .error (.rejected ("Every value must be between " ++ Number.decimalText min ++
        " and " ++ Number.decimalText max ++ "."))
    else .ok (.integer n)

/-! ### Vectors and lists -/

/-- A vector that counts up from two, as an example. -/
def sampleVector (n : Nat) : String :=
  "[" ++ ",".intercalate ((List.range n).map fun (i : Nat) => Number.decimalText (i + 2)) ++ "]"

/-- The wording for a text that is no vector of integers of the right length. -/
def vectorHint (exactly most : Option Nat) : String :=
  let (what, sample) :=
    match exactly, most with
    | some 2, _ => ("pair of integers", "[2,3] or [3,3]")
    | some 1, _ => ("list of 1 integer", "[2]")
    | some n, _ =>
      ("list of " ++ Number.decimalText n ++ " integers",
        sampleVector n ++ " or [" ++ ",".intercalate (List.replicate n "3") ++ "]")
    | none, some n =>
      ("list of at most " ++ Number.decimalText n ++ " integers", sampleVector n ++ " or [3]")
    | none, none => ("list of integers", "[1,2,3] or [5,6]")
  "It needs to be a " ++ what ++ " in square brackets, such as " ++ sample

/-- The wording for a text that is no vector of rationals. -/
def rationalVectorHint : String :=
  "It needs to be a list of rational numbers in square brackets, such as [1/2,3] or [-1,0]"

/-- The number of items of a vector: one more than the commas, but none in an empty one. -/
def vectorLength (text : List Char) : Nat :=
  if text = ['[', ']'] then 0 else text.count ',' + 1

/-- The text is a vector of unsigned integers of the right length. -/
def fitsVector (exactly most : Option Nat) (text : List Char) : Bool :=
  Token.isNaturalVector text && exactly.all (vectorLength text == ·) &&
    most.all (vectorLength text ≤ ·)

/-- The integers of a vector. -/
def readIntegerVector (exactly most : Option Nat) (text : List Char) : Except Error Scalar :=
  if fitsVector exactly most text then
    (IntegerList.readWithin text).map fun ns => .list (ns.map .integer)
  else .error (.rejected (vectorHint exactly most))

/-- The rationals of a vector. -/
def readRationalVector (text : List Char) : Except Error Scalar :=
  if !Token.isFractionVector text || text.getLast? != some ']' then
    .error (.rejected rationalVectorHint)
  else
    let inside := (text.drop 1).dropLast
    if inside.isEmpty then .ok (.list [])
    else
      ((pieces ',' inside).mapM Reader.readFraction).map fun qs => .list (qs.map .rational)

/-- The integers between commas, all brackets aside. -/
def readIntegers (text : List Char) : Except Error (List Int) :=
  (pieces ',' (text.filter fun c => c != '[' && c != ']')).mapM Reader.readInteger

/-- The constraint that the field equals what is read. -/
def stored (read : List Char → Except Error Scalar) : Compile := fun text context =>
  .after (read text) fun v => .change (·.insert context.key (.value v))

/-! ### Choices -/

/-- The truth value of a text, none for a text that stands for any, or the error. -/
def readTruth (text : String) : Except Error (Option Bool) :=
  if ["True", "yes", "1", "even"].contains text then .ok (some true)
  else if ["False", "no", "-1", "0", "odd"].contains text then .ok (some false)
  else if text = "Any" then .ok none
  else .error (.rejected "It must be True or False.")

/-- The constraint on a sign that is zero when the truth is unknown. -/
def readTruthOrUnknown (text : String) : Except Error Constraint :=
  if text = "yes" then .ok (.value (.integer 1))
  else if text = "no" then .ok (.value (.integer (-1)))
  else if text = "unknown" then .ok (.value (.integer 0))
  else if text = "not_no" then .ok (.range (some (.integer 0)) none)
  else if text = "not_yes" then .ok (.range none (some (.integer 0)))
  else .error (.rejected "It must be yes, no, not_no, not_yes or unknown.")

/-- The allowed texts in words. -/
def describe : List String → String
  | [] => "unspecified"
  | [only] => only
  | first :: rest => ", ".intercalate (first :: rest.dropLast) ++ " or " ++ rest.getLastD ""

/-- Writes a truth value under the key. -/
def compileTruth (blank : List String) (store : Bool → Scalar) : Compile := fun text context =>
  let input := String.ofList text
  if blank.contains input then .done
  else
    .after (readTruth input) fun
      | none => .done
      | some b => .change (·.insert context.key (.value (store b)))

/-- Writes the constraint on a truth value that may be unknown under the key. -/
def compileTruthOrUnknown : Compile := fun text context =>
  .after (readTruthOrUnknown (String.ofList text)) fun c => .change (·.insert context.key c)

/-- Writes an allowed text under the key. -/
def compileChoice (allowed blank : List String) (store : String → Scalar) : Compile :=
  fun text context =>
    let input := String.ofList text
    if blank.contains input then .done
    else if allowed.contains input then .change (·.insert context.key (.value (store input)))
    else .fail (.rejected ("It must be " ++ describe allowed))

/-! ### Assignments -/

/-- What follows the letters at the front of a text. -/
def dropLetters? : List Char → List Char → Option (List Char)
  | [], cs => some cs
  | l :: ls, c :: cs => if l = c then dropLetters? ls cs else none
  | _ :: _, [] => none

/-- The two sides of the only equals sign. -/
def sides? (piece : List Char) : Option (List Char × List Char) :=
  (cut '=' (trim piece)).filter fun (_, value) => !value.contains '='

/-- The index and the value of one assignment. -/
def readAssignment (letters : String) (shift : Int) (read : Reader) (piece : List Char) :
    Except Error (Int × Scalar) :=
  match sides? piece with
  | none =>
    .error (.rejected
      ("It must be a comma separated list of expressions of the form " ++ letters ++ "N=T"))
  | some (left, right) =>
    let name := trim left
    match dropLetters? letters.toList name with
    | none =>
      .error (.rejected (String.ofList name ++ " does not start with " ++ letters))
    | some digits =>
      (Reader.readInteger digits).bind fun n =>
        match Number.checked (n + shift) with
        | none =>
          .error (.rejected ("The index in " ++ String.ofList name ++ " is out of range"))
        | some index => (read (trim right)).map fun v => (index, v)

/-- Writes assignments one after the other, up to the first fault. -/
def assign (read : List Char → Except Error (Int × Scalar)) (key : String) :
    List (List Char) → Write
  | [], q => (q, .ok ())
  | piece :: rest, q =>
    match read piece with
    | .error e => (q, .error e)
    | .ok (index, v) =>
      assign read key rest (q.insert (Sequence.elementKey key index) (.value v))

/-! ### Sets -/

/-- The labels of a text, at least one. -/
def readLabels (text : List Char) : Except Error (List String) :=
  match ((pieces ',' text).filter fun p => !p.isEmpty).map String.ofList with
  | [] => .error (.rejected "It needs to be a comma-separated list of labels.")
  | ls => .ok ls

/-- Writes the condition on a stored set under the key. -/
def compileSet (items : SetItems) (mode : SetMode) (column : Option (DerivedColumn Int)) :
    Compile :=
  fun text context =>
    match items with
    | .integers most =>
      .after (Span.enumerate (some most) none text) fun ns =>
        SetCondition.apply mode column ns context.key
    | .labels repeats =>
      .after (readLabels text) fun ls =>
        SetCondition.apply mode none (if repeats then Occurrence.encode ls else ls) context.key

/-- The mode that the user has typed. -/
def readMode (mode : String) : Except Error SetMode :=
  match SetMode.ofName? (String.ofList (trim mode.toList)) with
  | some m => .ok m
  | none =>
    .error (.rejected
      ("The mode '" ++ mode ++ "' must be include, exclude, subset or exactly."))

/-- Reads the mode, and then writes the condition on a stored set. -/
def compileSetByName (items : SetItems) (mode : String) (column : Option (DerivedColumn Int)) :
    Compile :=
  fun text context => .after (readMode mode) fun m => compileSet items m column text context

/-! ### All kinds -/

/-- What a kind does with a clean text. -/
def compile : Kind → Compile
  | integers => guarded Token.isIntegerList Span.hint (Range.compile (.plain Reader.integer))
  | boundedIntegers min max =>
    guarded (fun cs => Token.isIntegerList cs || Token.isSignedList cs) Span.hint
      (Range.compile (.plain (boundedInteger min max)))
  | signedIntegers => guarded Token.isSignedList signedHint (Range.compile (.plain Reader.integer))
  | doubles => guarded Token.isDoubleList doubleHint (Range.compile (.plain Reader.double))
  | rationals =>
    guarded Token.isRationalList rationalListHint (Range.compileRational Reader.plainRational)
  | rational =>
    stored fun text =>
      if Token.isFraction text then Reader.rational text else .error (.rejected rationalHint)
  | integerVector exactly most => stored (readIntegerVector exactly most)
  | rationalVector => stored readRationalVector
  | integerList store => stored fun text => (readIntegers text).map store
  | truth blank store => compileTruth blank store
  | truthOrUnknown => compileTruthOrUnknown
  | choice allowed blank store => compileChoice allowed blank store
  | text store => stored fun text => .ok (store (String.ofList text))
  | assignments letters shift read => fun text context =>
    assign (readAssignment letters shift read) context.key (pieces ',' text)
  | label resolve => stored fun text => (resolve text).map .string
  | set items mode column => compileSet items mode column
  | setByName items mode column => compileSetByName items mode column
  | leading l => fun text context => l.compile context.key text
  | beginning b => fun text context => b.compile context.key text

/-- The box of a kind. -/
def box (k : Kind) : Box := ⟨k.policy, k.compile⟩

end Kind

end SearchBox
