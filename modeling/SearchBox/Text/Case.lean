import SearchBox.Text.CaseTable

/-!
# Letter case

`upperChar` and `lowerChar` give the full case mapping of one character, which may be several
characters: `ß` becomes `SS`, and `İ` becomes an `i` with a dot above. A text is mapped character by
character (`upper`), save that in `lower` a capital sigma at the end of a word becomes the final
sigma. `capitalized` is the form in which the name of a field is shown.
-/

namespace SearchBox.Text

/-- The upper case of a character. -/
def upperChar (c : Char) : List Char :=
  match upperExpansions.lookup c.toNat with
  | some ns => ns.map Char.ofNat
  | none => [((upperRows.findSome? (·.find? c.toNat)).map Char.ofNat).getD c]

/-- The lower case of a character. -/
def lowerChar (c : Char) : List Char :=
  if c.toNat = 0x130 then ['i', Char.ofNat 0x307]
  else [((lowerRows.findSome? (·.find? c.toNat)).map Char.ofNat).getD c]

/-- The upper case of a text. -/
def upper (cs : List Char) : List Char := cs.flatMap upperChar

/-! ### The sigma at the end of a word -/

/-- The first character that counts for the case of its neighbours is a letter with case. -/
def meetsCased (cs : List Char) : Bool :=
  match cs.dropWhile fun c => inRanges caseIgnorableRanges c.toNat with
  | [] => false
  | c :: _ => inRanges casedRanges c.toNat

/-- The lower case of a text, after the characters of `before`, the nearest first. -/
def lowerAfter (before : List Char) : List Char → List Char
  | [] => []
  | c :: rest =>
    let mapped :=
      if c = 'Σ' then [if meetsCased before && !meetsCased rest then 'ς' else 'σ']
      else lowerChar c
    mapped ++ lowerAfter (c :: before) rest

/-- The lower case of a text. -/
def lower (cs : List Char) : List Char := lowerAfter [] cs

@[simp] theorem upper_nil : upper [] = [] := rfl

@[simp] theorem lower_nil : lower [] = [] := rfl

/-! ### Shown names -/

/-- Underscores become spaces, the first character upper case and the others lower case, each by
itself. -/
def capitalized (cs : List Char) : List Char :=
  match cs.map fun c => if c = '_' then ' ' else c with
  | [] => []
  | c :: rest => upperChar c ++ rest.flatMap lowerChar

@[simp] theorem capitalized_nil : capitalized [] = [] := rfl

end SearchBox.Text
