import SearchBox.Text.Digit
import SearchBox.Text.Blank
import SearchBox.Token.Separator
import SearchBox.Token.Bracket

/-!
# The grammars of the boxes

A box first holds its text against a grammar and reads the numbers afterwards. The grammars are

* comma lists of integers, doubles and rationals, each with intervals: `isIntegerList`,
  `isSignedList`, `isDoubleList`, `isRationalList`, and `isNaturalList` without intervals;
* single tokens: `isDouble`, `isFraction`, `isPlainRational`;
* vectors in brackets: `isNaturalVector`, `isFractionVector`. Any text that begins with an empty
  pair of brackets belongs to both.

Digits are those of all scripts. `shape` tells lists, intervals and groups apart, and `hasDigitGap`
finds blanks between two digits.
-/

namespace SearchBox.Token

open Text

/-- Each piece between commas satisfies the condition. -/
def everyPiece (p : List Char → Bool) (cs : List Char) : Bool := (pieces ',' cs).all p

/-- The text is cut in two at the first `c`, and the parts satisfy a condition each. -/
def cutAt (c : Char) (p q : List Char → Bool) (cs : List Char) : Bool :=
  match cut c cs with
  | none => false
  | some (a, b) => p a && q b

/-- Nothing, or a text that satisfies the condition. -/
def orNothing (p : List Char → Bool) (cs : List Char) : Bool := cs.isEmpty || p cs

/-- The text without a minus sign at its front. -/
def dropMinus : List Char → List Char
  | '-' :: rest => rest
  | cs => cs

/-! ### Integers -/

/-- Digits, or digits and a dash and digits, where either side of the dash may be missing. -/
def isIntegerPiece (cs : List Char) : Bool :=
  isDigits cs || cutAt '-' (orNothing isDigits) (orNothing isDigits) cs

/-- A comma list of unsigned integers and intervals. -/
def isIntegerList (cs : List Char) : Bool := everyPiece isIntegerPiece cs

/-- A comma list of unsigned integers. -/
def isNaturalList (cs : List Char) : Bool := everyPiece isDigits cs

/-- Digits with an optional minus sign. -/
def isSigned (cs : List Char) : Bool := isDigits (dropMinus cs)

/-- A signed integer, or two of them with a dash between. -/
def isSignedPiece (cs : List Char) : Bool :=
  isSigned cs || cutAt '-' isDigits isSigned (dropMinus cs)

/-- A comma list of signed integers and closed intervals. -/
def isSignedList (cs : List Char) : Bool := everyPiece isSignedPiece cs

/-! ### Doubles -/

/-- Digits, with a point behind, between or in front of them. -/
def isMantissa (cs : List Char) : Bool :=
  isDigits cs || cutAt '.' isDigits (orNothing isDigits) cs || cutAt '.' List.isEmpty isDigits cs

/-- Digits with an optional sign. -/
def isExponent : List Char → Bool
  | '+' :: rest => isDigits rest
  | cs => isDigits (dropMinus cs)

/-- A mantissa, and after an `e` an exponent. -/
def isDouble (cs : List Char) : Bool := isMantissa cs || cutAt 'e' isMantissa isExponent cs

/-- All ways to take a text apart at a dash. -/
def dashSplits : List Char → List (List Char × List Char)
  | [] => []
  | c :: cs =>
    (if c = '-' then [([], cs)] else []) ++ (dashSplits cs).map fun (a, b) => (c :: a, b)

/-- A double, or one and a dash, or two with a dash between. -/
def isDoublePiece (cs : List Char) : Bool :=
  isDouble cs || (dashSplits cs).any fun (a, b) => isDouble a && orNothing isDouble b

/-- A comma list of doubles and intervals. -/
def isDoubleList (cs : List Char) : Bool := everyPiece isDoublePiece cs

/-! ### Rationals -/

/-- Digits, and after a slash digits; a minus sign may stand in front. -/
def isFraction (cs : List Char) : Bool :=
  isSigned cs || cutAt '/' isDigits isDigits (dropMinus cs)

/-- Digits, and after a point or a slash digits. -/
def isPlainRational (cs : List Char) : Bool :=
  isDigits cs || cutAt '.' isDigits isDigits cs || cutAt '/' isDigits isDigits cs

/-- A plain rational, or one and a dash, or two with a dash between. -/
def isRationalPiece (cs : List Char) : Bool :=
  isPlainRational cs || cutAt '-' isPlainRational (orNothing isPlainRational) cs

/-- A comma list of plain rationals and intervals. -/
def isRationalList (cs : List Char) : Bool := everyPiece isRationalPiece cs

/-! ### Vectors -/

/-- Items with commas between brackets, or any text that begins with an empty pair of brackets. -/
def isVector (item : List Char → Bool) (cs : List Char) : Bool :=
  ['[', ']'].isPrefixOf cs ||
    match enclosed? cs with
    | none => false
    | some inside => everyPiece item inside

/-- A vector of unsigned integers. -/
def isNaturalVector (cs : List Char) : Bool := isVector isDigits cs

/-- A vector of signed fractions. -/
def isFractionVector (cs : List Char) : Bool := isVector isFraction cs

/-! ### Gaps and shapes -/

/-- Blanks, and a digit behind them. -/
def opensGap : List Char → Bool
  | [] => false
  | c :: rest => isBlank c && ((rest.dropWhile isBlank).head?.any isDigit)

/-- Somewhere only blanks stand between two digits. -/
def hasDigitGap : List Char → Bool
  | [] => false
  | c :: rest => (isDigit c && opensGap rest) || hasDigitGap rest

/-- The shape of a cleaned token. -/
inductive Shape
  | single
  | list
  | interval
  | group
  deriving DecidableEq

/-- The shape of a token: brackets around it come first, then commas, then a separator. -/
def shape (cs : List Char) : Shape :=
  if (enclosed? cs).isSome then .group
  else if cs.contains ',' then .list
  else if (split? true cs).isSome then .interval
  else .single

end SearchBox.Token
