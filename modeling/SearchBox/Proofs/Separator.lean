import SearchBox.Token.Separator

/-!
# Where a separator is found

The search for a separator passes over the dashes of exponents and stops at two dots, or else at the
first other dash behind the first character. A token is `Unbroken` if the search passes over all of
it and would stop at a dash right behind it. So a text that is put together from an unbroken token,
a dash and a text without two dots in a row is cut where it was put together
(`Unbroken.split?_dash`).
-/

namespace SearchBox.Token

variable {before cs a b : List Char}

/-! ### Dots -/

theorem cutDots_cons {c : Char} (h : c = '.' → cs.head? ≠ some '.') :
    cutDots (c :: cs) = (cutDots cs).map fun (a, b) => (c :: a, b) := by
  rw [cutDots]
  rintro rest rfl rfl
  exact h rfl rfl

theorem cutDots_append_dots (ha : '.' ∉ a) (b : List Char) :
    cutDots (a ++ '.' :: '.' :: b) = some (a, b) := by
  induction a with
  | nil => rfl
  | cons c a ih =>
    rw [List.mem_cons, not_or] at ha
    rw [List.cons_append, cutDots_cons fun hc => absurd hc.symm ha.1, ih ha.2]
    rfl

/-- Two dots in a row are at least two dots. -/
theorem cutDots_of_count_le (h : cs.count '.' ≤ 1) : cutDots cs = none := by
  fun_induction cutDots cs with
  | case1 rest => simp at h
  | case2 c rest _ ih =>
    rw [ih (Nat.le_trans List.count_le_count_cons h)]
    rfl
  | case3 => rfl

theorem cutDots_of_not_mem (h : '.' ∉ cs) : cutDots cs = none :=
  cutDots_of_count_le (by rw [List.count_eq_zero_of_not_mem h]; exact Nat.zero_le 1)

/-- A character that is no dot brings no dots together. -/
theorem cutDots_append_cons {c : Char} (hc : c ≠ '.') (ha : cutDots a = none)
    (hb : cutDots b = none) : cutDots (a ++ c :: b) = none := by
  induction a with
  | nil =>
    rw [List.nil_append, cutDots_cons fun hdot => absurd hdot hc, hb]
    rfl
  | cons d a ih =>
    have hd : d = '.' → a.head? ≠ some '.' := by
      rintro rfl hhead
      obtain ⟨rest, rfl⟩ := List.head?_eq_some_iff.1 hhead
      cases ha
    have hd' : d = '.' → (a ++ c :: b).head? ≠ some '.' := by
      intro hdot
      cases a with
      | nil => simpa using hc
      | cons x a => exact hd hdot
    rw [cutDots_cons hd, Option.map_eq_none_iff] at ha
    rw [List.cons_append, cutDots_cons hd', ih ha]
    rfl

/-! ### Dashes -/

theorem cutDash_of_not_mem (h : '-' ∉ cs) : cutDash before cs = none := by
  induction cs generalizing before with
  | nil => rfl
  | cons c cs ih =>
    rw [List.mem_cons, not_or] at h
    rw [cutDash, if_neg (by simp [Ne.symm h.1]), ih h.2]

/-- What the search passes over, it passes over in every longer text. -/
theorem cutDash_append (h : cutDash before a = none) (b : List Char) :
    cutDash before (a ++ b) = cutDash (a.reverse ++ before) b := by
  induction a generalizing before with
  | nil => rfl
  | cons c a ih =>
    rw [cutDash] at h
    split at h
    · cases h
    · rename_i hpass
      rw [List.cons_append, cutDash, if_neg hpass, ih h, List.reverse_cons, List.append_assoc]
      rfl

theorem cutDash_dash (h : endsInExponent before = false) (b : List Char) :
    cutDash before ('-' :: b) = some (before.reverse, b) := by
  rw [cutDash, if_pos (by simp [h])]

theorem endsInExponent_of_last {c : Char} (hc : c ≠ 'e') (hc' : c ≠ 'E') (cs : List Char) :
    endsInExponent (c :: cs) = false := by
  cases cs with
  | nil => rfl
  | cons d cs => simp [endsInExponent, hc, hc']

/-- A text does not end in an exponent mark if its last part has none. -/
theorem endsInExponent_reverse_append (a : List Char) (hne : b ≠ []) (he : 'e' ∉ b) (hE : 'E' ∉ b) :
    endsInExponent (a ++ b).reverse = false := by
  rcases List.eq_nil_or_concat b with rfl | ⟨ds, c, rfl⟩
  · exact absurd rfl hne
  · rw [List.concat_eq_append, List.mem_append, not_or, List.mem_singleton] at he hE
    rw [List.concat_eq_append, List.reverse_append, List.reverse_append]
    exact endsInExponent_of_last (Ne.symm he.2) (Ne.symm hE.2) _

theorem endsInExponent_mark {c : Char} (hc : c = '.' ∨ c.isDigit = true) (cs : List Char) :
    endsInExponent ('e' :: c :: cs) = true := by
  rcases hc with rfl | hc
  · rfl
  · simp [endsInExponent, hc]

/-- The dash of an exponent behind digits and points is passed over. -/
theorem cutDash_exponent {c : Char} (hcs : ∀ d ∈ c :: cs, d = '.' ∨ d.isDigit = true)
    (hb : '-' ∉ b) : cutDash [c] (cs ++ 'e' :: '-' :: b) = none := by
  have hdash : '-' ∉ cs := by
    intro hmem
    rcases hcs '-' (List.mem_cons_of_mem c hmem) with h | h <;> cases h
  have hpass : cutDash [c] (cs ++ ['e']) = none := cutDash_of_not_mem (by simp [hdash])
  -- What was passed ends in the mark, and the last character of the mantissa stands before it.
  obtain ⟨init, d, hd⟩ : ∃ init d, c :: cs = init ++ [d] :=
    ⟨_, _, (List.dropLast_concat_getLast (List.cons_ne_nil c cs)).symm⟩
  have hbefore : (cs ++ ['e']).reverse ++ [c] = 'e' :: d :: init.reverse := by
    rw [List.reverse_append, List.append_assoc, ← List.reverse_cons, hd, List.reverse_append]
    rfl
  have hmark := endsInExponent_mark (hcs d (by simp [hd])) init.reverse
  calc cutDash [c] (cs ++ 'e' :: '-' :: b)
      = cutDash [c] ((cs ++ ['e']) ++ '-' :: b) := by rw [List.append_assoc]; rfl
    _ = cutDash ('e' :: d :: init.reverse) ('-' :: b) := by rw [cutDash_append hpass, hbefore]
    _ = cutDash ('-' :: 'e' :: d :: init.reverse) b := by rw [cutDash, if_neg (by simp [hmark])]
    _ = none := cutDash_of_not_mem hb

/-! ### The two parts and the separator -/

/-- The characters of a separator. -/
def Separator.text : Separator → List Char
  | .dots => ['.', '.']
  | .dash => ['-']

theorem Separator.exists_text_eq (sep : Separator) :
    ∃ mark c, sep.text = mark ++ [c] ∧ (c = '-' ∨ c = '.') := by
  cases sep with
  | dots => exact ⟨['.'], '.', rfl, .inr rfl⟩
  | dash => exact ⟨[], '-', rfl, .inl rfl⟩

theorem cutDots_eq_some (h : cutDots cs = some (a, b)) : cs = a ++ '.' :: '.' :: b := by
  fun_induction cutDots cs generalizing a with
  | case1 =>
    cases h
    rfl
  | case2 c rest _ ih =>
    obtain ⟨⟨a', b'⟩, hcut, heq⟩ := Option.map_eq_some_iff.1 h
    cases heq
    rw [ih hcut]
    rfl
  | case3 => cases h

theorem cutDash_eq_some (h : cutDash before cs = some (a, b)) :
    before.reverse ++ cs = a ++ '-' :: b := by
  induction cs generalizing before with
  | nil => cases h
  | cons c cs ih =>
    rw [cutDash] at h
    split at h
    · rename_i hdash
      cases h
      rw [Bool.and_eq_true, decide_eq_true_eq] at hdash
      rw [hdash.1]
    · rw [← ih h, List.reverse_cons, List.append_assoc, List.singleton_append]

/-- **A split loses nothing.** -/
theorem text_of_split? {dashes : Bool} {s : Split} (h : split? dashes cs = some s) :
    s.low ++ s.separator.text ++ s.high = cs := by
  cases cs with
  | nil => cases h
  | cons c cs =>
    rw [split?] at h
    split at h
    · rename_i a b hdots
      cases h
      simp [cutDots_eq_some hdots, Separator.text]
    · split at h
      · obtain ⟨⟨a, b⟩, hdash, rfl⟩ := Option.map_eq_some_iff.1 h
        simpa [Separator.text] using (cutDash_eq_some hdash).symm
      · cases h

/-- A text is cut at its only two dots, unless they stand at the front. -/
theorem split?_dots (dashes : Bool) (hne : a ≠ []) (ha : '.' ∉ a) (b : List Char) :
    split? dashes (a ++ '.' :: '.' :: b) = some ⟨a, .dots, b⟩ := by
  obtain ⟨c, a, rfl⟩ := List.exists_cons_of_ne_nil hne
  rw [List.mem_cons, not_or] at ha
  rw [List.cons_append, split?, cutDots_append_dots ha.2]

/-- Where a dash stands in a text that was split: in the low part, or as the separator, or in the
high part. -/
theorem dash_cases {low high : List Char} {sep : Separator}
    (h : low ++ sep.text ++ high = a ++ '-' :: b) :
    (∃ t, low = a ++ '-' :: t) ∨ (sep = .dash ∧ low = a ∧ high = b) ∨
      ∃ t, a = low ++ sep.text ++ t ∧ high = t ++ '-' :: b := by
  rw [List.append_assoc] at h
  rcases List.append_eq_append_iff.1 h with ⟨t, rfl, ht⟩ | ⟨t, rfl, ht⟩
  · -- The low part ends before the dash, which so is the separator or stands behind it.
    cases sep with
    | dash =>
      cases t with
      | nil =>
        cases ht
        exact .inr (.inl ⟨rfl, (List.append_nil low).symm, rfl⟩)
      | cons c t =>
        cases ht
        exact .inr (.inr ⟨t, by simp [Separator.text], rfl⟩)
    | dots =>
      rcases t with _ | ⟨c, _ | ⟨d, t⟩⟩
      · cases ht
      · cases ht
      · cases ht
        exact .inr (.inr ⟨t, by simp [Separator.text], rfl⟩)
  · cases t with
    | nil =>
      cases sep with
      | dash =>
        cases ht
        exact .inr (.inl ⟨rfl, List.append_nil a, rfl⟩)
      | dots => cases ht
    | cons c t =>
      obtain ⟨rfl, -⟩ := List.cons.inj ht
      exact .inl ⟨t, rfl⟩

/-! ### Unbroken tokens -/

/-- The search for a separator finds none in the token, and stops at a dash behind it. -/
structure Unbroken (cs : List Char) : Prop where
  ne_nil : cs ≠ []
  split?_eq : split? true cs = none
  cutDots_eq : cutDots cs = none
  endsInExponent_eq : endsInExponent cs.reverse = false

theorem unbroken_cons {c : Char} (hdash : cutDash [c] cs = none) (hdots : (c :: cs).count '.' ≤ 1)
    (hlast : endsInExponent (c :: cs).reverse = false) : Unbroken (c :: cs) where
  ne_nil := List.cons_ne_nil c cs
  split?_eq := by
    have hrest : cutDots cs = none :=
      cutDots_of_count_le (Nat.le_trans List.count_le_count_cons hdots)
    rw [split?, hrest, if_pos rfl, hdash]
    rfl
  cutDots_eq := cutDots_of_count_le hdots
  endsInExponent_eq := hlast

theorem unbroken_of_not_mem {c : Char} (hdash : '-' ∉ cs)
    (hmarks : ∀ x ∈ ['.', 'e', 'E'], x ∉ c :: cs) : Unbroken (c :: cs) := by
  have hdots : (c :: cs).count '.' = 0 := List.count_eq_zero_of_not_mem (hmarks '.' (by simp))
  have hlast := endsInExponent_reverse_append [] (List.cons_ne_nil c cs) (hmarks 'e' (by simp))
    (hmarks 'E' (by simp))
  exact unbroken_cons (cutDash_of_not_mem hdash) (by omega) hlast

/-- A text is cut behind its first unbroken token if a dash follows. -/
theorem Unbroken.split?_dash (ha : Unbroken a) (hb : cutDots b = none) :
    split? true (a ++ '-' :: b) = some ⟨a, .dash, b⟩ := by
  obtain ⟨c, rest, rfl⟩ := List.exists_cons_of_ne_nil ha.ne_nil
  have hsplit := ha.split?_eq
  unfold split? at hsplit
  cases hdots : cutDots rest with
  | some ends => simp [hdots] at hsplit
  | none =>
    have hpass : cutDash [c] rest = none := by simpa [hdots] using hsplit
    have hnone : cutDots (rest ++ '-' :: b) = none := cutDots_append_cons (by decide) hdots hb
    have hlast : endsInExponent (rest.reverse ++ [c]) = false := by
      simpa using ha.endsInExponent_eq
    rw [List.cons_append, split?, hnone, if_pos rfl, cutDash_append hpass, cutDash_dash hlast]
    simp

end SearchBox.Token
