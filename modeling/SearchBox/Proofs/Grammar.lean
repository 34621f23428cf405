import SearchBox.Proofs.Gap
import SearchBox.Proofs.Pieces
import SearchBox.Proofs.Reading
import SearchBox.Token.Grammar

/-!
# Tokens of the grammars

The grammars of integers, doubles and rationals are about whole pieces, and the search for a
separator is a function of its own. Here they are shown to agree. What a grammar accepts as a piece
has a reading with tokens of the same grammar (`isIntegerPiece_iff`, `isSignedPiece_iff`,
`isDoublePiece_iff`, `isRationalPiece_iff`), and the search passes over these tokens: over a signed
integer and over a plain rational with digits of any script (`unbroken_of_isSigned`,
`unbroken_of_isPlainRational`), and over a double with ASCII digits (`unbroken_of_isDouble`), for
only behind these it knows an exponent.
-/

namespace SearchBox.Token

open Text

variable {cs ds a b p : List Char} {c : Char}

/-! ### Digits and cuts -/

theorem not_mem_of_isDigits (hc : isDigit c = false) (h : isDigits cs = true) : c ∉ cs := by
  intro hmem
  rw [(isDigits_eq_true.1 h).2 c hmem] at hc
  cases hc

/-- Where no first part holds the character, a text is cut at it in one way only. -/
theorem cutAt_iff {accepts accepts' : List Char → Bool} (h : ∀ a, accepts a = true → c ∉ a) :
    cutAt c accepts accepts' cs = true ↔
      ∃ a b, cs = a ++ c :: b ∧ accepts a = true ∧ accepts' b = true := by
  constructor
  · intro hcut
    unfold cutAt at hcut
    split at hcut
    · cases hcut
    · rename_i a b hab
      exact ⟨a, b, (cut_eq_some hab).1, Bool.and_eq_true_iff.1 hcut⟩
  · rintro ⟨a, b, rfl, ha, hb⟩
    rw [cutAt, cut_append_cons (h a ha)]
    exact Bool.and_eq_true_iff.2 ⟨ha, hb⟩

theorem orNothing_iff {accepts : List Char → Bool} :
    orNothing accepts cs = true ↔ cs = [] ∨ accepts cs = true := by
  simp [orNothing]

/-- A piece with a reading is a token, or one with a dash behind it, or two with a dash between. -/
theorem exists_spells_iff {isToken : List Char → Bool} :
    (∃ r, Reading.Spells isToken p r) ↔ isToken p = true ∨
      ∃ a b, p = a ++ '-' :: b ∧ isToken a = true ∧ orNothing isToken b = true := by
  constructor
  · rintro ⟨r, rfl, h⟩
    cases r with
    | value a => exact .inl (h a (by simp [Reading.tokens]))
    | atLeast a => exact .inr ⟨a, [], rfl, h a (by simp [Reading.tokens]), rfl⟩
    | interval a b =>
      have hb := h b (by simp [Reading.tokens])
      exact .inr ⟨a, b, rfl, h a (by simp [Reading.tokens]), orNothing_iff.2 (.inr hb)⟩
  · rintro (h | ⟨a, b, rfl, ha, hb⟩)
    · exact ⟨.value p, .value h⟩
    · rcases orNothing_iff.1 hb with rfl | hb
      · exact ⟨.atLeast a, .atLeast ha⟩
      · exact ⟨.interval a b, .interval ha hb⟩

/-! ### Signed integers -/

theorem dropMinus_cons_of_ne (hc : c ≠ '-') (cs : List Char) : dropMinus (c :: cs) = c :: cs := by
  unfold dropMinus
  split
  · rename_i heq
    exact absurd (List.cons.inj heq).1 hc
  · rfl

/-- The sign of a text is that of its first part. -/
theorem dropMinus_append (hne : a ≠ []) (cs : List Char) :
    dropMinus (a ++ cs) = dropMinus a ++ cs := by
  obtain ⟨c, ds, rfl⟩ := List.exists_cons_of_ne_nil hne
  by_cases hc : c = '-'
  · subst hc
    rfl
  · rw [List.cons_append, dropMinus_cons_of_ne hc, dropMinus_cons_of_ne hc, List.cons_append]

theorem dropMinus_of_isDigits (h : isDigits cs = true) : dropMinus cs = cs := by
  obtain ⟨c, ds, rfl⟩ := List.exists_cons_of_ne_nil (isDigits_eq_true.1 h).1
  have hminus : '-' ∉ c :: ds := not_mem_of_isDigits rfl h
  rw [List.mem_cons, not_or] at hminus
  exact dropMinus_cons_of_ne (Ne.symm hminus.1) ds

theorem isSigned_of_isDigits (h : isDigits cs = true) : isSigned cs = true := by
  rw [isSigned, dropMinus_of_isDigits h, h]

/-- A signed integer begins with a digit or a minus sign, and goes on with digits. -/
theorem exists_of_isSigned (h : isSigned cs = true) :
    ∃ c ds, cs = c :: ds ∧ (c = '-' ∨ isDigit c = true) ∧ ∀ d ∈ ds, isDigit d = true := by
  unfold isSigned dropMinus at h
  split at h
  · rename_i ds
    exact ⟨'-', ds, rfl, .inl rfl, (isDigits_eq_true.1 h).2⟩
  · obtain ⟨hne, hds⟩ := isDigits_eq_true.1 h
    obtain ⟨c, ds, rfl⟩ := List.exists_cons_of_ne_nil hne
    rw [List.forall_mem_cons] at hds
    exact ⟨c, ds, rfl, .inr hds.1, hds.2⟩

theorem mem_of_isSigned (h : isSigned cs = true) (hc : c ∈ cs) : c = '-' ∨ isDigit c = true := by
  obtain ⟨d, ds, rfl, hd, hds⟩ := exists_of_isSigned h
  rcases List.mem_cons.1 hc with rfl | hc
  · exact hd
  · exact .inr (hds c hc)

theorem unbroken_of_isSigned (h : isSigned cs = true) : Unbroken cs := by
  have hnot {x : Char} (hx : x ≠ '-') (hx' : isDigit x = false) : x ∉ cs := fun hmem => by
    rcases mem_of_isSigned h hmem with hminus | hdigit
    · exact hx hminus
    · rw [hdigit] at hx'
      cases hx'
  have hdots : cs.count '.' = 0 := List.count_eq_zero_of_not_mem (hnot (by decide) rfl)
  have hlast : endsInExponent cs.reverse = false := by
    obtain ⟨c, ds, hcs, -, -⟩ := exists_of_isSigned h
    have hne : cs ≠ [] := hcs ▸ List.cons_ne_nil c ds
    exact endsInExponent_reverse_append [] hne (hnot (by decide) rfl) (hnot (by decide) rfl)
  obtain ⟨c, ds, rfl, -, hds⟩ := exists_of_isSigned h
  have hdash : '-' ∉ ds := fun hmem => absurd (hds '-' hmem) (by decide)
  exact unbroken_cons (cutDash_of_not_mem hdash) (by omega) hlast

/-- A text whose digits end before a character, a minus sign aside, is a signed integer up to
there. -/
theorem cutAt_dropMinus_iff (hc : isDigit c = false) {accepts : List Char → Bool} :
    cutAt c isDigits accepts (dropMinus p) = true ↔
      ∃ a b, p = a ++ c :: b ∧ isSigned a = true ∧ accepts b = true := by
  rw [cutAt_iff fun a ha => not_mem_of_isDigits hc ha]
  constructor
  · rintro ⟨a, b, hab, ha, hb⟩
    unfold dropMinus at hab
    split at hab
    · exact ⟨'-' :: a, b, congrArg ('-' :: ·) hab, ha, hb⟩
    · exact ⟨a, b, hab, isSigned_of_isDigits ha, hb⟩
  · rintro ⟨a, b, rfl, ha, hb⟩
    obtain ⟨c, ds, hcs, -, -⟩ := exists_of_isSigned ha
    exact ⟨dropMinus a, b, dropMinus_append (by simp [hcs]) _, ha, hb⟩

/-- **A piece of signed integers is one of them, or two with a dash between.** -/
theorem isSignedPiece_iff : isSignedPiece p = true ↔
    isSigned p = true ∨ ∃ a b, p = a ++ '-' :: b ∧ isSigned a = true ∧ isSigned b = true := by
  rw [isSignedPiece, Bool.or_eq_true, cutAt_dropMinus_iff rfl]

/-! ### Unsigned integers -/

/-- **A piece of unsigned integers is a dash, or one signed integer, or has a reading in digits.**
The grammar lets the digits before a dash be missing, and this makes the dash a sign. -/
theorem isIntegerPiece_iff : isIntegerPiece p = true ↔
    p = ['-'] ∨ isSigned p = true ∨ ∃ r, Reading.Spells isDigits p r := by
  have hdigits (a : List Char) (ha : orNothing isDigits a = true) : '-' ∉ a := by
    rcases orNothing_iff.1 ha with rfl | ha
    · exact List.not_mem_nil
    · exact not_mem_of_isDigits rfl ha
  rw [isIntegerPiece, Bool.or_eq_true, cutAt_iff hdigits, exists_spells_iff]
  constructor
  · rintro (h | ⟨a, b, rfl, ha, hb⟩)
    · exact .inr (.inr (.inl h))
    · rcases orNothing_iff.1 ha with rfl | ha
      · rcases orNothing_iff.1 hb with rfl | hb
        · exact .inl rfl
        · exact .inr (.inl hb)
      · exact .inr (.inr (.inr ⟨a, b, rfl, ha, hb⟩))
  · rintro (rfl | h | h | ⟨a, b, rfl, ha, hb⟩)
    · exact .inr ⟨[], [], rfl, rfl, rfl⟩
    · unfold isSigned dropMinus at h
      split at h
      · exact .inr ⟨[], _, rfl, rfl, orNothing_iff.2 (.inr h)⟩
      · exact .inl h
    · exact .inl h
    · exact .inr ⟨a, b, rfl, orNothing_iff.2 (.inr ha), hb⟩

theorem isIntegerPiece_minus (ds : List Char) :
    isIntegerPiece ('-' :: ds) = orNothing isDigits ds := rfl

/-! ### Doubles -/

/-- A mantissa is made of digits, with one point among them at most. -/
theorem exists_of_isMantissa (h : isMantissa cs = true) :
    ∃ a b, (cs = a ++ b ∨ cs = a ++ '.' :: b) ∧ cs ≠ [] ∧ ∀ c ∈ a ++ b, isDigit c = true := by
  have hdigits (a : List Char) (ha : isDigits a = true) : '.' ∉ a := not_mem_of_isDigits rfl ha
  have hempty (a : List Char) (ha : a.isEmpty = true) : '.' ∉ a := by simp [List.isEmpty_iff.1 ha]
  rw [isMantissa, Bool.or_eq_true, Bool.or_eq_true, cutAt_iff hdigits, cutAt_iff hempty] at h
  rcases h with (h | ⟨a, b, rfl, ha, hb⟩) | ⟨a, b, rfl, ha, hb⟩
  · obtain ⟨hne, hds⟩ := isDigits_eq_true.1 h
    exact ⟨[], cs, .inl rfl, hne, hds⟩
  · refine ⟨a, b, .inr rfl, by simp, fun c hc => ?_⟩
    rcases List.mem_append.1 hc with hc | hc
    · exact (isDigits_eq_true.1 ha).2 c hc
    · rcases orNothing_iff.1 hb with rfl | hb
      · cases hc
      · exact (isDigits_eq_true.1 hb).2 c hc
  · rw [List.isEmpty_iff.1 ha]
    exact ⟨[], b, .inr rfl, by simp, (isDigits_eq_true.1 hb).2⟩

theorem mem_of_isMantissa (h : isMantissa cs = true) (hc : c ∈ cs) : c = '.' ∨ isDigit c = true := by
  obtain ⟨a, b, rfl | rfl, -, hds⟩ := exists_of_isMantissa h
  · exact .inr (hds c hc)
  · have hsplit : c ∈ a ∨ c = '.' ∨ c ∈ b := by simpa using hc
    rcases hsplit with hc | rfl | hc
    · exact .inr (hds c (by simp [hc]))
    · exact .inl rfl
    · exact .inr (hds c (by simp [hc]))

theorem count_dot_of_isMantissa (h : isMantissa cs = true) : cs.count '.' ≤ 1 := by
  obtain ⟨a, b, hcs, -, hds⟩ := exists_of_isMantissa h
  have hnone : (a ++ b).count '.' = 0 :=
    List.count_eq_zero_of_not_mem fun hmem => absurd (hds _ hmem) (by decide)
  rw [List.count_append] at hnone
  rcases hcs with rfl | rfl
  · rw [List.count_append]
    omega
  · rw [List.count_append, List.count_cons_self]
    omega

/-- An exponent is digits with an optional sign. -/
theorem exists_of_isExponent (h : isExponent cs = true) :
    ∃ sign ds, cs = sign ++ ds ∧ (sign = [] ∨ sign = ['+'] ∨ sign = ['-']) ∧ isDigits ds = true := by
  unfold isExponent at h
  split at h
  · rename_i ds
    exact ⟨['+'], ds, rfl, .inr (.inl rfl), h⟩
  · unfold dropMinus at h
    split at h
    · rename_i ds _
      exact ⟨['-'], ds, rfl, .inr (.inr rfl), h⟩
    · exact ⟨[], cs, rfl, .inl rfl, h⟩

/-- A double is a mantissa, or a mantissa with an exponent. -/
theorem exists_of_isDouble (h : isDouble cs = true) :
    isMantissa cs = true ∨ ∃ m e, cs = m ++ 'e' :: e ∧ isMantissa m = true ∧ isExponent e = true := by
  have hmantissa (a : List Char) (ha : isMantissa a = true) : 'e' ∉ a := by
    intro hmem
    rcases mem_of_isMantissa ha hmem with he | he <;> cases he
  rwa [isDouble, Bool.or_eq_true, cutAt_iff hmantissa] at h

theorem unbroken_of_isMantissa (h : isMantissa cs = true) : Unbroken cs := by
  have hnot {x : Char} (hx : x ≠ '.') (hx' : isDigit x = false) : x ∉ cs := fun hmem => by
    rcases mem_of_isMantissa h hmem with hdot | hdigit
    · exact hx hdot
    · rw [hdigit] at hx'
      cases hx'
  obtain ⟨a, b, -, hne, -⟩ := exists_of_isMantissa h
  have hlast : endsInExponent cs.reverse = false :=
    endsInExponent_reverse_append [] hne (hnot (by decide) rfl) (hnot (by decide) rfl)
  have hdash : '-' ∉ cs := hnot (by decide) rfl
  have hdots := count_dot_of_isMantissa h
  obtain ⟨c, ds, rfl⟩ := List.exists_cons_of_ne_nil hne
  rw [List.mem_cons, not_or] at hdash
  exact unbroken_cons (cutDash_of_not_mem hdash.2) hdots hlast

/-- **A double with ASCII digits is passed over**, with the sign of its exponent. -/
theorem unbroken_of_isDouble (h : isDouble cs = true)
    (hascii : ∀ c ∈ cs, isDigit c = true → c.isDigit = true) : Unbroken cs := by
  rcases exists_of_isDouble h with hm | ⟨m, e, rfl, hm, he⟩
  · exact unbroken_of_isMantissa hm
  obtain ⟨sign, ds, rfl, hsign, hds⟩ := exists_of_isExponent he
  have hnot {x : Char} (hx : isDigit x = false) : x ∉ ds := not_mem_of_isDigits hx hds
  have hdots : (m ++ 'e' :: (sign ++ ds)).count '.' ≤ 1 := by
    have hexponent : '.' ∉ 'e' :: (sign ++ ds) := by
      rcases hsign with rfl | rfl | rfl <;> simp [hnot (x := '.') rfl]
    rw [List.count_append, List.count_eq_zero_of_not_mem hexponent]
    exact count_dot_of_isMantissa hm
  have hlast : endsInExponent (m ++ 'e' :: (sign ++ ds)).reverse = false := by
    have hend := endsInExponent_reverse_append (m ++ 'e' :: sign) (isDigits_eq_true.1 hds).1
      (hnot rfl) (hnot rfl)
    rwa [List.append_assoc, List.cons_append] at hend
  have hchars : ∀ c ∈ m, c = '.' ∨ c.isDigit = true := fun c hc =>
    (mem_of_isMantissa hm hc).imp_right (hascii c (List.mem_append_left _ hc))
  have hminus : '-' ∉ m := by
    intro hmem
    rcases hchars '-' hmem with h' | h' <;> cases h'
  obtain ⟨c, rest, rfl⟩ := List.exists_cons_of_ne_nil (unbroken_of_isMantissa hm).ne_nil
  rw [List.mem_cons, not_or] at hminus
  refine unbroken_cons ?_ hdots hlast
  -- Without a minus sign there is no dash at all, and a minus sign stands behind the mark.
  rcases hsign with rfl | rfl | rfl
  · exact cutDash_of_not_mem (by simp [hminus.2, hnot (x := '-') rfl])
  · exact cutDash_of_not_mem (by simp [hminus.2, hnot (x := '-') rfl])
  · exact cutDash_exponent hchars (hnot rfl)

theorem mem_dashSplits : (a, b) ∈ dashSplits cs ↔ cs = a ++ '-' :: b := by
  induction cs generalizing a with
  | nil => simp [dashSplits]
  | cons c cs ih =>
    rw [dashSplits, List.mem_append, List.mem_map]
    constructor
    · rintro (h | ⟨⟨a', b'⟩, h, heq⟩)
      · split at h
        · rename_i hc
          cases List.mem_singleton.1 h
          rw [hc]
          rfl
        · cases h
      · cases heq
        rw [ih.1 h]
        rfl
    · intro h
      cases a with
      | nil =>
        obtain ⟨rfl, rfl⟩ := List.cons.inj h
        exact .inl (by simp)
      | cons x a =>
        obtain ⟨rfl, hcs⟩ := List.cons.inj h
        exact .inr ⟨(a, b), ih.2 hcs, rfl⟩

/-- **A piece of doubles is one with a reading in doubles.** -/
theorem isDoublePiece_iff : isDoublePiece p = true ↔ ∃ r, Reading.Spells isDouble p r := by
  rw [exists_spells_iff, isDoublePiece, Bool.or_eq_true, List.any_eq_true]
  simp only [Prod.exists, mem_dashSplits, Bool.and_eq_true]

/-! ### Rationals -/

/-- A fraction is a signed integer, or one with a slash and digits behind it. -/
theorem isFraction_iff : isFraction p = true ↔
    isSigned p = true ∨ ∃ a b, p = a ++ '/' :: b ∧ isSigned a = true ∧ isDigits b = true := by
  rw [isFraction, Bool.or_eq_true, cutAt_dropMinus_iff rfl]

/-- A fraction has digits, signs and slashes only. -/
theorem mem_of_isFraction (h : isFraction cs = true) (hc : c ∈ cs) :
    isDigit c = true ∨ c = '-' ∨ c = '/' := by
  rcases isFraction_iff.1 h with h | ⟨a, b, rfl, ha, hb⟩
  · exact (mem_of_isSigned h hc).symm.imp_right .inl
  · rcases List.mem_append.1 hc with hc | hc
    · exact (mem_of_isSigned ha hc).symm.imp_right .inl
    · rcases List.mem_cons.1 hc with rfl | hc
      · exact .inr (.inr rfl)
      · exact .inl ((isDigits_eq_true.1 hb).2 c hc)

/-- A plain rational is digits, or digits with a point or a slash between. -/
theorem isPlainRational_iff : isPlainRational cs = true ↔
    isDigits cs = true ∨ ∃ mark a b, (mark = '.' ∨ mark = '/') ∧ cs = a ++ mark :: b ∧
      isDigits a = true ∧ isDigits b = true := by
  have hdot (a : List Char) (ha : isDigits a = true) : '.' ∉ a := not_mem_of_isDigits rfl ha
  have hslash (a : List Char) (ha : isDigits a = true) : '/' ∉ a := not_mem_of_isDigits rfl ha
  rw [isPlainRational, Bool.or_eq_true, Bool.or_eq_true, cutAt_iff hdot, cutAt_iff hslash, or_assoc]
  simp only [or_and_right, exists_or, exists_and_left, exists_eq_left]

theorem mem_of_isPlainRational (h : isPlainRational cs = true) (hc : c ∈ cs) :
    c = '.' ∨ c = '/' ∨ isDigit c = true := by
  rcases isPlainRational_iff.1 h with h | ⟨mark, a, b, hmark, rfl, ha, hb⟩
  · exact .inr (.inr ((isDigits_eq_true.1 h).2 c hc))
  · rcases List.mem_append.1 hc with hc | hc
    · exact .inr (.inr ((isDigits_eq_true.1 ha).2 c hc))
    · rcases List.mem_cons.1 hc with rfl | hc
      · exact hmark.imp_right .inl
      · exact .inr (.inr ((isDigits_eq_true.1 hb).2 c hc))

theorem count_dot_of_isPlainRational (h : isPlainRational cs = true) : cs.count '.' ≤ 1 := by
  have hnone {ds : List Char} (hds : isDigits ds = true) : ds.count '.' = 0 :=
    List.count_eq_zero_of_not_mem (not_mem_of_isDigits rfl hds)
  rcases isPlainRational_iff.1 h with h | ⟨mark, a, b, -, rfl, ha, hb⟩
  · rw [hnone h]
    exact Nat.zero_le 1
  · rw [List.count_append, List.count_cons, hnone ha, hnone hb]
    split <;> omega

/-- **A plain rational is passed over.** -/
theorem unbroken_of_isPlainRational (h : isPlainRational cs = true) : Unbroken cs := by
  have hnot {x : Char} (hdot : x ≠ '.') (hslash : x ≠ '/') (hdigit : isDigit x = false) : x ∉ cs :=
    fun hmem => by
      rcases mem_of_isPlainRational h hmem with hx | hx | hx
      · exact hdot hx
      · exact hslash hx
      · rw [hdigit] at hx
        cases hx
  have hne : cs ≠ [] := by
    rintro rfl
    cases h
  have hlast : endsInExponent cs.reverse = false :=
    endsInExponent_reverse_append [] hne (hnot (by decide) (by decide) rfl)
      (hnot (by decide) (by decide) rfl)
  have hdash : '-' ∉ cs := hnot (by decide) (by decide) rfl
  have hdots := count_dot_of_isPlainRational h
  obtain ⟨c, ds, rfl⟩ := List.exists_cons_of_ne_nil hne
  rw [List.mem_cons, not_or] at hdash
  exact unbroken_cons (cutDash_of_not_mem hdash.2) hdots hlast

/-- **A piece of rationals is one with a reading in plain rationals.** -/
theorem isRationalPiece_iff :
    isRationalPiece p = true ↔ ∃ r, Reading.Spells isPlainRational p r := by
  have hminus (a : List Char) (ha : isPlainRational a = true) : '-' ∉ a := fun hmem => by
    rcases mem_of_isPlainRational ha hmem with hx | hx | hx <;> cases hx
  rw [exists_spells_iff, isRationalPiece, Bool.or_eq_true, cutAt_iff hminus]

end SearchBox.Token
