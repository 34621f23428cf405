import SearchBox.Number.Integer
import SearchBox.Number.Shortest

/-!
# Doubles

A `Double` is a number of double precision, given by the 64 bits of its encoding, so that a NaN keeps
its sign and its payload. Comparison with `==` is that of the values.

* `Double.layout` writes a double from its shortest decimal. A `Layout` record fixes what differs
  between two written forms: `Layout.shown` is the form inside messages and prefixes,
  `Layout.exchanged` the form in JSON.
* `Double.read?` reads a decimal numeral with optional point and exponent, correctly rounded, and
  refuses one that is too large for a finite double.
-/

namespace SearchBox.Number

/-- A number of double precision: a sign bit, eleven bits of exponent and 52 bits of fraction. -/
structure Double where
  bits : UInt64
  deriving Inhabited

namespace Double

/-! ### Parts of a double -/

/-- The exponent as it is stored; the greatest one marks the infinities and the NaNs. -/
def storedExponent (x : Double) : Nat := (x.bits.toNat >>> 52) % 2048

/-- The digits behind the leading one, which is not stored. -/
def fraction (x : Double) : Nat := x.bits.toNat % Nat.pow 2 52

/-- The double is neither infinite nor a NaN. -/
def isFinite (x : Double) : Bool := x.storedExponent != 2047

/-- The double stands for no number. -/
def isNaN (x : Double) : Bool := !x.isFinite && x.fraction != 0

/-- The sign bit is set. -/
def isNegative (x : Double) : Bool := x.bits.toNat >>> 63 == 1

/-- The double is zero, with either sign. -/
def isZero (x : Double) : Bool := x.storedExponent == 0 && x.fraction == 0

/-- The magnitude of a finite double. -/
def magnitude (x : Double) : Binary :=
  if x.storedExponent = 0 then ⟨x.fraction, -1074⟩
  else ⟨Nat.pow 2 52 + x.fraction, x.storedExponent - 1075⟩

/-- The double with the other sign. -/
def negate (x : Double) : Double := ⟨x.bits ^^^ 0x8000000000000000⟩

/-- Zero without a sign. -/
def zero : Double := ⟨0⟩

/-- The infinity without a sign. -/
def infinity : Double := ⟨0x7FF0000000000000⟩

/-- The NaN without a sign or a payload. -/
def nan : Double := ⟨0x7FF8000000000000⟩

/-- The doubles have equal values: the two zeros are equal, and a NaN differs from itself. -/
def beq (x y : Double) : Bool :=
  !x.isNaN && !y.isNaN && (x.bits == y.bits || (x.isZero && y.isZero))

instance : BEq Double := ⟨beq⟩

/-! ### Writing -/

/-- How a finite double is laid out. -/
structure Layout where
  /-- The least and the greatest place of the first digit for which no exponent is written. -/
  positional : Option (Int × Int)
  /-- Whole numbers end in a point and a zero. -/
  wholeHasPoint : Bool
  tie : Tie

/-- In messages no exponent is ever written, and whole numbers have no point. -/
def Layout.shown : Layout := ⟨none, false, .up⟩

/-- In JSON an exponent is written below `10 ^ -5` and from `10 ^ 16`, and whole numbers keep a
point. -/
def Layout.exchanged : Layout := ⟨some (-5, 15), true, .even⟩

/-- The first digit stands at a place for which the layout writes no exponent. -/
def Layout.isPositional (l : Layout) (place : Int) : Bool :=
  match l.positional with
  | none => true
  | some (least, greatest) => least ≤ place && place ≤ greatest

/-- The digits with the point after the first `point` places, filled up with zeros. -/
def positional (wholeHasPoint : Bool) (ds : List Char) (point : Int) : List Char :=
  if ds.length ≤ point then
    ds ++ List.replicate (point.toNat - ds.length) '0' ++ (if wholeHasPoint then ['.', '0'] else [])
  else if 0 < point then ds.take point.toNat ++ '.' :: ds.drop point.toNat
  else '0' :: '.' :: (List.replicate (-point).toNat '0' ++ ds)

/-- One digit, the others after a point, and the place of the first as a signed exponent. -/
def scientific (ds : List Char) (place : Int) : List Char :=
  let fraction := if ds.length ≤ 1 then [] else '.' :: ds.drop 1
  let sign := if 0 ≤ place then '+' else '-'
  ds.take 1 ++ fraction ++ 'e' :: sign :: Nat.toDigits 10 place.natAbs

/-- A finite double in the given layout. -/
def layout (l : Layout) (x : Double) : List Char :=
  let d := (magnitude x).shortest l.tie
  let ds := Nat.toDigits 10 d.digits
  let point := d.exponent + ds.length
  let body :=
    if d.digits = 0 || l.isPositional (point - 1) then positional l.wholeHasPoint ds point
    else scientific ds (point - 1)
  if isNegative x then '-' :: body else body

/-! ### Reading -/

/-- The double nearest to `digits · 10 ^ exponent`, if that is finite. Outside of the decimal
exponents that doubles have, the number is infinite or zero. -/
def nearest? (digits : Nat) (exponent : Int) : Option Double :=
  let place := exponent + (Nat.toDigits 10 digits).length
  if digits = 0 ∨ place < -330 then some zero
  else if 310 < place then none
  else
    let x : Double := ⟨(Float.ofScientific digits (exponent < 0) exponent.natAbs).toBits⟩
    if x.isFinite then some x else none

/-- The digits of a mantissa, with a point anywhere, as a whole number and the count of digits after
the point. -/
def readMantissa? (cs : List Char) : Option (Nat × Nat) :=
  let whole := cs.takeWhile Char.isDigit
  let fraction :=
    match cs.dropWhile Char.isDigit with
    | '.' :: rest => some rest
    | [] => some []
    | _ => none
  fraction.bind fun f =>
    if f.all Char.isDigit then (readNatural? (whole ++ f)).map (·, f.length) else none

/-- A run of digits with an optional sign, of any size. -/
def readExponent? : List Char → Option Int
  | '-' :: ds => (readNatural? ds).map fun n => -n
  | '+' :: ds => (readNatural? ds).map Int.ofNat
  | ds => (readNatural? ds).map Int.ofNat

/-- A mantissa and, after an `e`, an exponent. -/
def readUnsigned? (cs : List Char) : Option Double :=
  let isMark (c : Char) : Bool := c = 'e' || c = 'E'
  let exponent? :=
    match cs.dropWhile fun c => !isMark c with
    | [] => some 0
    | _ :: rest => readExponent? rest
  (readMantissa? (cs.takeWhile fun c => !isMark c)).bind fun (digits, places) =>
    exponent?.bind fun e => nearest? digits (e - places)

/-- The finite double of a decimal numeral. -/
def read? : List Char → Option Double
  | '-' :: cs => (readUnsigned? cs).map negate
  | '+' :: cs => readUnsigned? cs
  | cs => readUnsigned? cs

end Double

end SearchBox.Number
