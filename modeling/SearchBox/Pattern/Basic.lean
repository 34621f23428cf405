import SearchBox.Text.Digit
import SearchBox.Text.Blank

/-!
# Label patterns

Whether an input is a label is said by a regular expression. The boxes only need a `SearchEngine`,
which makes of a written expression a `Search` through texts, or refuses it.

A `Pattern` is a regular expression over characters, and `Pattern.search` the search for it. At every
place of a text the ways to match are tried in a fixed order: the first branch of a choice before the
second, and many repetitions before few. `Pattern.rests` lists what each way leaves of the text, in
that order, and the search takes the first way at the first place that has one. So it takes the whole
text (`Pattern.matchesWhole`) only when the first way at the front leaves nothing.
-/

namespace SearchBox

/-- Looks for a match in a text, and gives what stands before and behind the match that it finds. -/
abbrev Search := List Char → Option (List Char × List Char)

/-- Makes a search of a written expression, if it is one. -/
abbrev SearchEngine := String → Option Search

/-- A set of characters. -/
inductive CharClass
  | any
  | digit
  | blank
  /-- The characters of closed ranges of code points, or all others. -/
  | ranges (negated : Bool) (rs : List (Nat × Nat))
  deriving DecidableEq, Inhabited

/-- The character belongs to the class. -/
def CharClass.holds : CharClass → Char → Bool
  | any, c => c != '\n'
  | digit, c => Text.isDigit c
  | blank, c => Text.isBlank c
  | ranges negated rs, c =>
    negated != rs.any fun (first, last) => first ≤ c.toNat && c.toNat ≤ last

/-- A regular expression. -/
inductive Pattern
  | empty
  | one (c : CharClass)
  | sequence (p q : Pattern)
  | choice (p q : Pattern)
  | many (p : Pattern)
  deriving DecidableEq, Inhabited

namespace Pattern

/-- A pattern or nothing. -/
def optional (p : Pattern) : Pattern := choice p empty

/-- A pattern once or more often. -/
def manyOne (p : Pattern) : Pattern := sequence p (many p)

/-- What is left after repetitions of a step, each of which takes something, most repetitions
first; at most `fuel` repetitions. -/
def repeated (step : List Char → List (List Char)) : Nat → List Char → List (List Char)
  | 0, cs => [cs]
  | fuel + 1, cs =>
    ((step cs).filter (·.length < cs.length)).flatMap (repeated step fuel) ++ [cs]

/-- What each way to match the pattern at the front leaves of the text, in the order of
preference. -/
def rests : Pattern → List Char → List (List Char)
  | empty, cs => [cs]
  | one _, [] => []
  | one k, c :: cs => if k.holds c then [cs] else []
  | sequence p q, cs => (p.rests cs).flatMap q.rests
  | choice p q, cs => p.rests cs ++ q.rests cs
  | many p, cs => repeated p.rests cs.length cs

/-- The preferred match at the front of the text takes all of it. -/
def matchesWhole (p : Pattern) (cs : List Char) : Bool :=
  match p.rests cs with
  | [] :: _ => true
  | _ => false

/-- Takes the preferred match at the first place of the text that has one. -/
def search (p : Pattern) : Search
  | [] => (p.rests []).head?.map fun behind => ([], behind)
  | c :: cs =>
    match p.rests (c :: cs) with
    | behind :: _ => some ([], behind)
    | [] => (search p cs).map fun (before, behind) => (c :: before, behind)

/-- The match that is found is the whole text exactly if the preferred one at the front is. -/
theorem search_eq_whole_iff {p : Pattern} {cs : List Char} :
    p.search cs = some ([], []) ↔ p.matchesWhole cs = true := by
  cases cs with
  | nil =>
    rw [search, matchesWhole]
    rcases p.rests [] with - | ⟨- | ⟨c, rest⟩, -⟩ <;> simp
  | cons c cs =>
    rw [search, matchesWhole]
    rcases p.rests (c :: cs) with - | ⟨- | ⟨d, rest⟩, -⟩ <;> simp

@[simp] theorem rests_empty (cs : List Char) : empty.rests cs = [cs] := by
  simp [rests]

@[simp] theorem rests_choice (p q : Pattern) (cs : List Char) :
    (choice p q).rests cs = p.rests cs ++ q.rests cs := by
  simp [rests]

@[simp] theorem rests_sequence (p q : Pattern) (cs : List Char) :
    (sequence p q).rests cs = (p.rests cs).flatMap q.rests := by
  simp [rests]

end Pattern

end SearchBox
