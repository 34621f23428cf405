import SearchBox.Text.Basic

/-!
# The separator of an interval

A token such as `2-10`, `2..10` or `-5--2` is cut in two at its separator. The first character of a
token is never part of a separator, so a leading sign stays with its number. Two dots win over a
dash, and a dash inside an exponent such as `1e-5` does not count.
-/

namespace SearchBox.Token

open Text

/-- What separates the two ends of an interval. -/
inductive Separator
  | dots
  | dash
  deriving DecidableEq

/-- The number of bytes of a separator. -/
def Separator.length : Separator → Nat
  | .dots => 2
  | .dash => 1

/-- A token in two parts with the separator between them. -/
structure Split where
  low : List Char
  separator : Separator
  high : List Char

/-- The byte at which the separator begins. -/
def Split.offset (s : Split) : Nat := utf8Length s.low

/-- The text before the first two dots and the text after them. -/
def cutDots : List Char → Option (List Char × List Char)
  | '.' :: '.' :: rest => some ([], rest)
  | c :: rest => (cutDots rest).map fun (a, b) => (c :: a, b)
  | [] => none

/-- The characters passed, the nearest first, end in an exponent mark behind a digit or a point. -/
def endsInExponent : List Char → Bool
  | mark :: c :: _ => (mark = 'e' || mark = 'E') && (c.isDigit || c = '.')
  | _ => false

/-- The text before the first dash outside of an exponent and the text after it. The characters of
`before`, the nearest first, have been passed already. -/
def cutDash (before : List Char) : List Char → Option (List Char × List Char)
  | [] => none
  | c :: rest =>
    if c = '-' && !endsInExponent before then some (before.reverse, rest)
    else cutDash (c :: before) rest

/-- Cuts a token at its separator; a dash counts only when `dashes` is set. -/
def split? (dashes : Bool) : List Char → Option Split
  | [] => none
  | c :: rest =>
    match cutDots rest with
    | some (a, b) => some ⟨c :: a, .dots, b⟩
    | none => if dashes then (cutDash [c] rest).map fun (a, b) => ⟨a, .dash, b⟩ else none

@[simp] theorem split?_nil (dashes : Bool) : split? dashes [] = none := rfl

theorem cutDash_low_ne_nil {before cs a b : List Char} (h : cutDash before cs = some (a, b))
    (hb : before ≠ []) : a ≠ [] := by
  induction cs generalizing before with
  | nil => simp [cutDash] at h
  | cons c rest ih =>
    unfold cutDash at h
    split at h
    · simp only [Option.some.injEq, Prod.mk.injEq] at h
      obtain ⟨rfl, -⟩ := h
      simpa using hb
    · exact ih h (by simp)

/-- The part before a separator is never empty. -/
theorem low_ne_nil_of_split? {dashes : Bool} {cs : List Char} {s : Split}
    (h : split? dashes cs = some s) : s.low ≠ [] := by
  unfold split? at h
  split at h
  · simp at h
  · split at h
    · simp only [Option.some.injEq] at h
      subst h
      simp
    · split at h
      · obtain ⟨⟨a, b⟩, hab, rfl⟩ := Option.map_eq_some_iff.1 h
        exact cutDash_low_ne_nil hab (by simp)
      · simp at h

end SearchBox.Token
