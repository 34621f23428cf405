import SearchBox.Reader

/-!
# Spans of integers

A comma list of integers and closed intervals as a list of spans, in the order in which they were
typed (`Span.decompose`), and the integers that it denotes (`Span.enumerate`). The number of integers
can be capped, and a cap refuses a wide interval before its members are listed. With a set of allowed
integers the members are drawn from that set, so a wide interval costs nothing.
-/

namespace SearchBox

open Text

/-- One piece of a list of integers. -/
inductive Span
  | single (n : Int)
  | interval (low high : Int)
  deriving DecidableEq, Inhabited

namespace Span

/-- The wording for a text that is no list of integers and closed intervals. -/
def hint : String :=
  "It needs to be an integer (such as 25), a range of integers (such as 2-10 or 2..10), " ++
    "or a comma-separated list of these (such as 4,9,16 or 4-25, 81-121)."

/-- The integer lies in the span. -/
def contains (n : Int) : Span → Bool
  | single m => n == m
  | interval low high => low ≤ n && n ≤ high

/-- The number of integers in the span. -/
def width : Span → Nat
  | single _ => 1
  | interval low high => (high - low + 1).toNat

/-! ### Reading -/

/-- The span with the given ends. -/
def closed (low high : Int) : Span := if low = high then single low else interval low high

/-- The spans of an interval. When `splitsZero` is set, zero is taken out of an interval that has
integers on both sides of it. -/
def between (splitsZero : Bool) (low high : Int) : List Span :=
  if splitsZero && decide (low < 0) && decide (0 < high) then [closed low (-1), closed 1 high]
  else [closed low high]

/-- The spans of a piece without comma; an interval has both ends. -/
def ofPiece (splitsZero : Bool) (piece : List Char) : Except Error (List Span) :=
  match Token.split? true piece with
  | none => (Reader.readInteger piece).map fun n => [single n]
  | some s =>
    if s.low.isEmpty || s.high.isEmpty then .error (.rejected hint)
    else
      (Reader.readInteger s.low).bind fun low =>
        (Reader.readInteger s.high).map fun high => between splitsZero low high

/-- The spans of a comma list; the first piece that cannot be read decides the error. -/
def decompose (splitsZero : Bool) (token : List Char) : Except Error (List Span) :=
  ((pieces ',' (erase ' ' token)).mapM (ofPiece splitsZero)).map List.flatten

/-! ### Enumeration -/

/-- The union of two ascending lists. -/
def union : List Int → List Int → List Int
  | [], ys => ys
  | xs, [] => xs
  | x :: xs, y :: ys =>
    if x < y then x :: union xs (y :: ys)
    else if y < x then y :: union (x :: xs) ys
    else x :: union xs ys
termination_by xs ys => xs.length + ys.length

/-- The integers of a span, ascending; of an ascending list of allowed ones, those in the span. -/
def members (allowed : Option (List Int)) (s : Span) : List Int :=
  match allowed, s with
  | some ns, s => ns.filter (contains · s)
  | none, single n => [n]
  | none, interval low high => (List.range (interval low high).width).map fun (i : Nat) => low + i

/-- The count is above the cap. -/
def exceeds (cap : Option Nat) (count : Nat) : Bool :=
  match cap with
  | none => false
  | some most => most < count

/-- Adds the integers of a span to those found. The cap on widths is checked before an interval is
listed, the cap on the result afterwards. -/
def collect (cap : Option Nat) (allowed : Option (List Int)) (found : List Int) (s : Span) :
    Except Error (List Int) :=
  let tooWide :=
    match allowed, s with
    | none, interval low high => exceeds cap (found.length + (interval low high).width)
    | _, _ => false
  if tooWide then .error .tooManyOptions
  else
    let all := union found (members allowed s)
    if exceeds cap all.length then .error .tooManyOptions else .ok all

/-- An ascending list without repetitions that has the same members. -/
def ascending (ns : List Int) : List Int := (ns.mergeSort fun a b => decide (a ≤ b)).eraseReps

/-- The integers that a list denotes, ascending and each once, at most as many as the cap. Without
allowed integers, the number of spans is capped too. -/
def enumerate (cap : Option Nat) (allowed : Option (List Int)) (token : List Char) :
    Except Error (List Int) :=
  (decompose false token).bind fun spans =>
    if allowed.isNone && exceeds cap spans.length then .error .tooManyOptions
    else spans.foldlM (collect cap (allowed.map ascending)) []

end Span

end SearchBox
