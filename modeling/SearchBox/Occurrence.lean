/-!
# Occurrence codes

A list of labels may hold one label several times. `Occurrence.encode` tells the occurrences apart: it
puts a code of capital letters behind each label, `A` for the first occurrence, `B` for the second. A
code is a number to the base 26 with the letters as digits, so `BA` follows `Z`.
-/

namespace SearchBox.Occurrence

/-- The letter of a digit below 26. -/
def letter (d : Nat) : Char := Char.ofNat (65 + d)

/-- A number to the base 26, the highest digit first. -/
def code (n : Nat) : List Char :=
  if n < 26 then [letter n] else code (n / 26) ++ [letter (n % 26)]

theorem code_of_lt {n : Nat} (h : n < 26) : code n = [letter n] := by
  rw [code, if_pos h]

theorem code_of_le {n : Nat} (h : 26 ≤ n) : code n = code (n / 26) ++ [letter (n % 26)] := by
  rw [code, if_neg (Nat.not_lt.2 h)]

theorem code_ne_nil (n : Nat) : code n ≠ [] := by
  unfold code
  split <;> simp

/-- A label with the code of an occurrence behind it. -/
def tag (label : String) (n : Nat) : String := label ++ String.ofList (code n)

/-- Tags each label with the number of its occurrences before, those of `seen` included. -/
def encodeAfter (seen : List String) : List String → List String
  | [] => []
  | l :: ls => tag l (seen.count l) :: encodeAfter (l :: seen) ls

/-- Tags each label with its occurrence. -/
def encode (labels : List String) : List String := encodeAfter [] labels

@[simp] theorem length_encodeAfter (seen labels : List String) :
    (encodeAfter seen labels).length = labels.length := by
  induction labels generalizing seen with
  | nil => rfl
  | cons l ls ih => simp [encodeAfter, ih]

end SearchBox.Occurrence
