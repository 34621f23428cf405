import SearchBox.Proofs.Range
import SearchBox.Proofs.Separator

/-!
# Readings of a piece

A piece of a comma list is put together from tokens: it is one token, or a token with a dash behind
it, or two tokens with a dash between them. If the search for a separator passes over the tokens,
then a piece has one such `Token.Reading` at most (`Reading.eq_of_text_eq`), and the piece is
compiled as its reading says (`Range.ofPiece_text`).
-/

namespace SearchBox

namespace Token

/-- How a piece is put together from tokens. -/
inductive Reading
  | value (a : List Char)
  | atLeast (a : List Char)
  | interval (a b : List Char)

namespace Reading

/-- The piece. -/
def text : Reading → List Char
  | value a => a
  | atLeast a => a ++ ['-']
  | interval a b => a ++ '-' :: b

/-- The tokens from left to right. -/
def tokens : Reading → List (List Char)
  | value a | atLeast a => [a]
  | interval a b => [a, b]

/-- The two parts around the dash, if there is one. -/
def split : Reading → Option Split
  | value _ => none
  | atLeast a => some ⟨a, .dash, []⟩
  | interval a b => some ⟨a, .dash, b⟩

/-- The reading is put together from tokens of a grammar, and makes the piece. -/
structure Spells (isToken : List Char → Bool) (piece : List Char) (r : Reading) : Prop where
  text_eq : r.text = piece
  isToken_of_mem : ∀ t ∈ r.tokens, isToken t = true

namespace Spells

variable {isToken : List Char → Bool} {a b : List Char}

theorem value (ha : isToken a = true) : Spells isToken a (.value a) :=
  ⟨rfl, by simpa [tokens] using ha⟩

theorem atLeast (ha : isToken a = true) : Spells isToken (a ++ ['-']) (.atLeast a) :=
  ⟨rfl, by simpa [tokens] using ha⟩

theorem interval (ha : isToken a = true) (hb : isToken b = true) :
    Spells isToken (a ++ '-' :: b) (.interval a b) :=
  ⟨rfl, by simpa [tokens] using ⟨ha, hb⟩⟩

end Spells

theorem infix_text {r : Reading} {t : List Char} (ht : t ∈ r.tokens) : t <:+: r.text := by
  cases r with
  | value a => exact List.mem_singleton.1 ht ▸ List.infix_rfl
  | atLeast a => exact List.mem_singleton.1 ht ▸ (List.prefix_append a ['-']).isInfix
  | interval a b =>
    rcases List.mem_cons.1 ht with rfl | ht
    · exact (List.prefix_append t ('-' :: b)).isInfix
    · rw [List.mem_singleton.1 ht]
      exact ((List.suffix_cons '-' b).trans (List.suffix_append a ('-' :: b))).isInfix

theorem subset_text {r : Reading} {t : List Char} (ht : t ∈ r.tokens) : t ⊆ r.text :=
  (infix_text ht).subset

/-- **A piece is cut at the dash between unbroken tokens.** -/
theorem split?_text {r : Reading} (h : ∀ t ∈ r.tokens, Unbroken t) :
    split? true r.text = r.split := by
  cases r with
  | value a => exact (h a (by simp [tokens])).split?_eq
  | atLeast a => exact (h a (by simp [tokens])).split?_dash rfl
  | interval a b =>
    exact (h a (by simp [tokens])).split?_dash (h b (by simp [tokens])).cutDots_eq

/-- **A piece has one reading with unbroken tokens at most.** -/
theorem eq_of_text_eq {r r' : Reading} (h : ∀ t ∈ r.tokens, Unbroken t)
    (h' : ∀ t ∈ r'.tokens, Unbroken t) (heq : r.text = r'.text) : r = r' := by
  have hsplit : r.split = r'.split := by rw [← split?_text h, ← split?_text h', heq]
  cases r with
  | value a =>
    cases r' with
    | value a' => exact congrArg value heq
    | atLeast a' => cases hsplit
    | interval a' b' => cases hsplit
  | atLeast a =>
    cases r' with
    | value a' => cases hsplit
    | atLeast a' =>
      cases hsplit
      rfl
    | interval a' b' =>
      cases hsplit
      exact absurd rfl (h' [] (by simp [tokens])).ne_nil
  | interval a b =>
    cases r' with
    | value a' => cases hsplit
    | atLeast a' =>
      cases hsplit
      exact absurd rfl (h [] (by simp [tokens])).ne_nil
    | interval a' b' =>
      cases hsplit
      rfl

/-- What a piece is made of are its tokens and a dash. -/
theorem mem_text {r : Reading} {c : Char} (h : c ∈ r.text) : c = '-' ∨ ∃ t ∈ r.tokens, c ∈ t := by
  cases r with
  | value a => exact .inr ⟨a, List.mem_singleton_self a, h⟩
  | atLeast a =>
    rcases List.mem_append.1 h with h | h
    · exact .inr ⟨a, List.mem_singleton_self a, h⟩
    · exact .inl (List.mem_singleton.1 h)
  | interval a b =>
    rcases List.mem_append.1 h with h | h
    · exact .inr ⟨a, List.mem_cons_self, h⟩
    · exact (List.mem_cons.1 h).imp_right fun hb => ⟨b, by simp [tokens], hb⟩

/-- If the tokens of a grammar are unbroken, a piece is put together from them in one way only. -/
theorem Spells.unique {isToken : List Char → Bool} (hbroken : ∀ t, isToken t = true → Unbroken t)
    {p : List Char} {r r' : Reading} (h : r.Spells isToken p) (h' : r'.Spells isToken p) : r = r' :=
  eq_of_text_eq (fun t ht => hbroken t (h.isToken_of_mem t ht))
    (fun t ht => hbroken t (h'.isToken_of_mem t ht)) (h.text_eq.trans h'.text_eq.symm)

/-- The constraint of a reading: a value, a lower bound, or both bounds; the tokens are read from
left to right. -/
def constraint (read : Reader) : Reading → Except Error Constraint
  | value a => (read a).map .value
  | atLeast a => (read a).map fun v => .range (some v) none
  | interval a b => (read a).bind fun v => (read b).map fun w => .range (some v) (some w)

/-- A reading has a constraint if all of its tokens can be read. -/
theorem exists_constraint_iff {read : Reader} {r : Reading} :
    (∃ c, r.constraint read = .ok c) ↔ ∀ t ∈ r.tokens, ∃ v, read t = .ok v := by
  cases r with
  | value a | atLeast a =>
    simp only [constraint, tokens, List.mem_singleton, forall_eq]
    cases read a <;> simp [Except.map]
  | interval a b =>
    simp only [constraint, tokens, List.mem_cons, List.not_mem_nil, or_false, forall_eq_or_imp,
      forall_eq]
    cases read a <;> cases read b <;> simp [Except.bind, Except.map]

end Reading

end Token

open Token

namespace Range

/-- **A piece is compiled as its reading says.** -/
theorem ofPiece_text (read : Reader) {r : Reading} (h : ∀ t ∈ r.tokens, Unbroken t) :
    ofPiece (.plain read) r.text = r.constraint read := by
  have hbound {t : List Char} (ht : t ∈ r.tokens) : boundOf read t = (read t).map some :=
    boundOf_of_ne_nil read (h t ht).ne_nil
  rw [ofPiece, Style.plain, Reading.split?_text h]
  cases r with
  | value a => rfl
  | atLeast a =>
    simp only [Reading.split, Reading.constraint, intervalOf, hbound (List.mem_singleton_self a)]
    cases read a <;> rfl
  | interval a b =>
    have ha : a ∈ (Reading.interval a b).tokens := by simp [Reading.tokens]
    have hb : b ∈ (Reading.interval a b).tokens := by simp [Reading.tokens]
    simp only [Reading.split, Reading.constraint, intervalOf, hbound ha, hbound hb]
    cases read a with
    | error e => rfl
    | ok v => cases read b <;> rfl

end Range

end SearchBox
