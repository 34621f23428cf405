import SearchBox.Error
import SearchBox.Scalar
import SearchBox.Token.Grammar

/-!
# Readers

A reader turns one token into a scalar. The integer and the double reader drop blanks around the
token; the rational readers hold it against its grammar first. An error names the token as it came.
-/

namespace SearchBox

/-- Turns one token into a scalar. -/
abbrev Reader := List Char → Except Error Scalar

namespace Reader

open Text Number

/-- The value that was read, or the error that names the token. -/
def orInvalid {α : Type} (token : List Char) : Option α → Except Error α
  | some a => .ok a
  | none => .error (.invalidNumber (String.ofList token))

@[simp] theorem orInvalid_some {α : Type} (token : List Char) (a : α) :
    orInvalid token (some a) = .ok a := rfl

@[simp] theorem orInvalid_none {α : Type} (token : List Char) :
    orInvalid token (none : Option α) = .error (.invalidNumber (String.ofList token)) := rfl

/-- A 64-bit integer with an optional sign. -/
def readInteger (token : List Char) : Except Error Int :=
  orInvalid token (readInteger? (trim token))

/-- Reads an integer. -/
def integer : Reader := fun token => (readInteger token).map .integer

/-- Reads a finite double. -/
def double : Reader := fun token => (orInvalid token (Double.read? (trim token))).map .double

/-- Takes the token as a string. -/
def text : Reader := fun token => .ok (.string (String.ofList token))

/-- The wording for a zero below the line. -/
def zeroDenominatorMessage : String := "The denominator must be nonzero"

/-- A signed integer, or a fraction of two. -/
def readFraction (token : List Char) : Except Error Rat :=
  if !Token.isFraction token then .error (.invalidNumber (String.ofList token))
  else
    match cut '/' token with
    | none => (orInvalid token (readInteger? token)).map fun (n : Int) => (n : Rat)
    | some (a, b) =>
      match readInteger? a, readInteger? b with
      | some n, some d =>
        if d = 0 then .error (.rejected zeroDenominatorMessage) else .ok (Rat.divInt n d)
      | _, _ => .error (.invalidNumber (String.ofList token))

/-- Reads a signed rational. -/
def rational : Reader := fun token => (readFraction token).map .rational

/-- The number of decimal places, which is counted in 32 bits. -/
def decimalPlaces (fraction : List Char) : Nat := utf8Length fraction % 4294967296

/-- The value of digits with at most eighteen digits after a point, if the numerator over the power
of ten fits. -/
def decimalFraction? (whole fraction : List Char) : Option Rat :=
  if 18 < decimalPlaces fraction then none
  else
    let scale : Int := Nat.pow 10 (decimalPlaces fraction)
    (readInteger? whole).bind fun w =>
      (readInteger? fraction).bind fun f =>
        (checked (w * scale)).bind fun shifted =>
          (checked (shifted + f)).map fun n => Rat.divInt n scale

/-- A fraction or decimal without sign, kept exact. -/
def readPlainRational (token : List Char) : Except Error Rat :=
  if !Token.isPlainRational token then .error (.invalidNumber (String.ofList token))
  else if token.contains '/' then readFraction token
  else
    match cut '.' token with
    | none => (orInvalid token (readInteger? token)).map fun (n : Int) => (n : Rat)
    | some (whole, fraction) => orInvalid token (decimalFraction? whole fraction)

/-- Reads an unsigned rational, as a fraction or a decimal. -/
def plainRational : Reader := fun token => (readPlainRational token).map .rational

end Reader

end SearchBox
