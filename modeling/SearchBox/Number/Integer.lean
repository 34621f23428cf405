/-!
# Integers in decimal

The integers of a query are the 64-bit ones. `readInteger?` reads a decimal numeral with an optional
sign and refuses what does not fit, and `decimal` writes an integer in its shortest form.
-/

namespace SearchBox.Number

/-- The least integer that can be stored. -/
def leastInteger : Int := -9223372036854775808

/-- The greatest integer that can be stored. -/
def greatestInteger : Int := 9223372036854775807

/-- The integer fits into 64 bits. -/
abbrev Fits (n : Int) : Prop := leastInteger ≤ n ∧ n ≤ greatestInteger

/-- The integer if it fits. -/
def checked (n : Int) : Option Int := if Fits n then some n else none

/-- The integer, or the nearest one that fits. -/
def saturated (n : Int) : Int := max leastInteger (min n greatestInteger)

theorem checked_eq_some {n m : Int} : checked n = some m ↔ n = m ∧ Fits n := by
  unfold checked
  split
  · rename_i h
    simp only [Option.some.injEq, iff_self_and]
    rintro rfl
    exact h
  · rename_i h
    simp only [reduceCtorEq, false_iff]
    rintro ⟨rfl, hm⟩
    exact h hm

/-! ### Reading -/

/-- The value of a nonempty run of ASCII digits. -/
def readNatural? (cs : List Char) : Option Nat :=
  if !cs.isEmpty && cs.all Char.isDigit then some (Nat.ofDigitChars 10 cs 0) else none

/-- The integer of a decimal numeral with an optional sign, if it fits. -/
def readInteger? : List Char → Option Int
  | '-' :: ds => (readNatural? ds).bind fun n => checked (-n)
  | '+' :: ds => (readNatural? ds).bind fun n => checked n
  | ds => (readNatural? ds).bind fun n => checked n

@[simp] theorem readNatural?_nil : readNatural? [] = none := rfl

@[simp] theorem readInteger?_nil : readInteger? [] = none := rfl

theorem fits_of_readInteger? {cs : List Char} {n : Int} (h : readInteger? cs = some n) :
    Fits n := by
  unfold readInteger? at h
  split at h <;>
    · obtain ⟨k, -, hk⟩ := Option.bind_eq_some_iff.1 h
      obtain ⟨rfl, hf⟩ := checked_eq_some.1 hk
      exact hf

/-! ### Writing -/

/-- The decimal numeral of an integer, with a minus sign if it is negative. -/
def decimal : Int → List Char
  | .ofNat n => Nat.toDigits 10 n
  | .negSucc n => '-' :: Nat.toDigits 10 (n + 1)

/-- The decimal numeral as a string. -/
def decimalText (n : Int) : String := String.ofList (decimal n)

end SearchBox.Number
