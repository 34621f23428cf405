import SearchBox.Proofs.Gap
import SearchBox.Proofs.Text
import SearchBox.Proofs.Reader

/-!
# Numerals

A `Numeral` is a run of ASCII digits with an optional minus sign, together with the integer that it
stands for. The integer reader reads the numerals of integers that fit (`Numeral.readInteger?_eq`), and
of the texts that do not begin with a plus sign it reads no others (`numeral_of_readInteger?`).
What is written for an integer is a numeral of it (`numeral_decimal`). A text is read as an integer
with blanks at its ends as well (`Reader.exists_of_readInteger`).
-/

namespace SearchBox

/-! ### ASCII digits -/

namespace Text

theorem isDigit_of_isAsciiDigit {c : Char} (h : c.isDigit = true) : isDigit c = true := by
  have hfirst : '0'.toNat = 0x30 := rfl
  have hlast : '9'.toNat = 0x39 := rfl
  rw [Char.isDigit_iff_toNat, hfirst, hlast] at h
  refine List.any_eq_true.2 ⟨0x30, by simp [digitZeros], ?_⟩
  simp only [Bool.and_eq_true, decide_eq_true_eq]
  omega

theorem isDigits_of_isAsciiDigit {cs : List Char} (hne : cs ≠ [])
    (hcs : ∀ c ∈ cs, c.isDigit = true) : isDigits cs = true :=
  isDigits_eq_true.2 ⟨hne, fun c hc => isDigit_of_isAsciiDigit (hcs c hc)⟩

theorem not_blank_of_isAsciiDigit {c : Char} (h : c.isDigit = true) : isBlank c = false :=
  not_blank_of_isDigit (isDigit_of_isAsciiDigit h)

end Text

open Text

namespace Number

/-! ### Numerals and their values -/

/-- Digits stand for zero if and only if all of them are zeros. -/
theorem ofDigitChars_eq_zero_iff {ds : List Char} (hds : ∀ d ∈ ds, d.isDigit = true) {start : Nat} :
    Nat.ofDigitChars 10 ds start = 0 ↔ start = 0 ∧ ∀ d ∈ ds, d = '0' := by
  induction ds generalizing start with
  | nil => simp [Nat.ofDigitChars_nil]
  | cons d ds ih =>
    rw [List.forall_mem_cons] at hds
    have hzero : '0'.toNat = 0x30 := rfl
    have hdigit : d = '0' ↔ d.toNat - '0'.toNat = 0 := by
      have hrange := Char.isDigit_iff_toNat.1 hds.1
      rw [← Char.toNat_inj]
      omega
    have hsum : 10 * start + (d.toNat - '0'.toNat) = 0 ↔ start = 0 ∧ d = '0' := by
      rw [hdigit]
      omega
    rw [Nat.ofDigitChars_cons, ih hds.2, List.forall_mem_cons, hsum, and_assoc]

/-- A run of ASCII digits with an optional minus sign, and the integer it stands for. -/
inductive Numeral : List Char → Int → Prop
  | plain {ds : List Char} (hne : ds ≠ []) (hds : ∀ c ∈ ds, c.isDigit = true) :
    Numeral ds (Nat.ofDigitChars 10 ds 0)
  | negative {ds : List Char} (hne : ds ≠ []) (hds : ∀ c ∈ ds, c.isDigit = true) :
    Numeral ('-' :: ds) (-(Nat.ofDigitChars 10 ds 0 : Nat))

variable {cs : List Char} {n : Int}

/-- A numeral begins with a digit or a minus sign, and goes on with digits. -/
theorem Numeral.exists_cons (h : Numeral cs n) :
    ∃ c ds, cs = c :: ds ∧ (c = '-' ∨ c.isDigit = true) ∧ ∀ d ∈ ds, d.isDigit = true := by
  cases h with
  | plain hne hds =>
    obtain ⟨c, ds, rfl⟩ := List.exists_cons_of_ne_nil hne
    rw [List.forall_mem_cons] at hds
    exact ⟨c, ds, rfl, .inr hds.1, hds.2⟩
  | negative hne hds => exact ⟨'-', _, rfl, .inl rfl, hds⟩

theorem Numeral.of_mem (h : Numeral cs n) {c : Char} (hc : c ∈ cs) : c = '-' ∨ c.isDigit = true := by
  obtain ⟨d, ds, rfl, hd, hds⟩ := h.exists_cons
  rcases List.mem_cons.1 hc with rfl | hc
  · exact hd
  · exact .inr (hds c hc)

/-- A character that is neither a digit nor a minus sign stands in no numeral. -/
theorem Numeral.not_mem (h : Numeral cs n) {c : Char} (hminus : c ≠ '-')
    (hdigit : c.isDigit = false) : c ∉ cs := by
  intro hc
  rcases h.of_mem hc with heq | htrue
  · exact hminus heq
  · rw [hdigit] at htrue
    cases htrue

theorem Numeral.exists_digit (h : Numeral cs n) : ∃ c ∈ cs, c.isDigit = true := by
  cases h with
  | plain hne hds =>
    obtain ⟨d, ds, rfl⟩ := List.exists_cons_of_ne_nil hne
    exact ⟨d, by simp, hds d (by simp)⟩
  | negative hne hds =>
    obtain ⟨d, ds, rfl⟩ := List.exists_cons_of_ne_nil hne
    exact ⟨d, by simp, hds d (by simp)⟩

theorem Numeral.ne_nil (h : Numeral cs n) : cs ≠ [] := by
  obtain ⟨c, ds, rfl, -, -⟩ := h.exists_cons
  exact List.cons_ne_nil c ds

theorem Numeral.not_blank (h : Numeral cs n) : ∀ c ∈ cs, isBlank c = false := by
  intro c hc
  rcases h.of_mem hc with rfl | hdigit
  · rfl
  · exact not_blank_of_isAsciiDigit hdigit

/-- A text is the numeral of one integer at most. -/
theorem Numeral.unique {m : Int} (h : Numeral cs n) (h' : Numeral cs m) : n = m := by
  cases h with
  | plain _ hds =>
    cases h' with
    | plain => rfl
    | negative => exact absurd (hds '-' (by simp)) (by decide)
  | negative =>
    cases h' with
    | plain _ hdigits => exact absurd (hdigits '-' (by simp)) (by decide)
    | negative => rfl

theorem isAsciiDigit_of_mem_toDigits (m : Nat) : ∀ c ∈ Nat.toDigits 10 m, c.isDigit = true :=
  fun _ hc => Nat.isDigit_of_mem_toDigits (by decide) (by decide) hc

/-- What is written for an integer is a numeral of it. -/
theorem numeral_decimal (n : Int) : Numeral (decimal n) n := by
  cases n with
  | ofNat m =>
    have h := Numeral.plain Nat.toDigits_ne_nil (isAsciiDigit_of_mem_toDigits m)
    rwa [Nat.ofDigitChars_ten_toDigits] at h
  | negSucc m =>
    have h := Numeral.negative Nat.toDigits_ne_nil (isAsciiDigit_of_mem_toDigits (m + 1))
    rwa [Nat.ofDigitChars_ten_toDigits] at h

theorem decimal_injective : Function.Injective decimal := by
  intro m n h
  have hn := numeral_decimal n
  rw [← h] at hn
  exact (numeral_decimal m).unique hn

theorem minus_not_mem_decimal (h : 0 ≤ n) : '-' ∉ decimal n := by
  obtain ⟨m, rfl⟩ := Int.eq_ofNat_of_zero_le h
  intro hmem
  exact absurd (isAsciiDigit_of_mem_toDigits m _ hmem) (by decide)

theorem exists_decimal_eq_cons (h : n < 0) : ∃ ds, decimal n = '-' :: ds := by
  obtain ⟨m, rfl⟩ := Int.eq_negSucc_of_lt_zero h
  exact ⟨_, rfl⟩

/-! ### Reading numerals -/

theorem readNatural?_eq_some {m : Nat} :
    readNatural? cs = some m ↔
      (cs ≠ [] ∧ ∀ c ∈ cs, c.isDigit = true) ∧ Nat.ofDigitChars 10 cs 0 = m := by
  simp [readNatural?]

/-- A text that begins with no sign is read as digits. -/
theorem readInteger?_of_not_sign {c : Char} (hminus : c ≠ '-') (hplus : c ≠ '+') :
    readInteger? (c :: cs) = (readNatural? (c :: cs)).bind fun m => checked m := by
  unfold readInteger?
  split
  · rename_i heq
    exact absurd (List.cons.inj heq).1 hminus
  · rename_i heq
    exact absurd (List.cons.inj heq).1 hplus
  · rfl

/-- A numeral is read as its integer, if that fits. -/
theorem Numeral.readInteger?_eq (h : Numeral cs n) : readInteger? cs = checked n := by
  cases h with
  | @plain ds hne hds =>
    have hread := readNatural?_eq_some.2 ⟨⟨hne, hds⟩, rfl⟩
    obtain ⟨c, ds, rfl⟩ := List.exists_cons_of_ne_nil hne
    have hc : c.isDigit = true := hds c (by simp)
    have hminus : c ≠ '-' := fun heq => absurd (heq ▸ hc) (by decide)
    have hplus : c ≠ '+' := fun heq => absurd (heq ▸ hc) (by decide)
    rw [readInteger?_of_not_sign hminus hplus, hread]
    rfl
  | @negative ds hne hds =>
    have hread := readNatural?_eq_some.2 ⟨⟨hne, hds⟩, rfl⟩
    rw [readInteger?, hread]
    rfl

/-- What is read has digits and signs only. -/
theorem mem_of_readInteger? (h : readInteger? cs = some n) {c : Char} (hc : c ∈ cs) :
    c = '-' ∨ c = '+' ∨ c.isDigit = true := by
  unfold readInteger? at h
  split at h
  · obtain ⟨m, hm, -⟩ := Option.bind_eq_some_iff.1 h
    rcases List.mem_cons.1 hc with rfl | hc
    · exact .inl rfl
    · exact .inr (.inr ((readNatural?_eq_some.1 hm).1.2 c hc))
  · obtain ⟨m, hm, -⟩ := Option.bind_eq_some_iff.1 h
    rcases List.mem_cons.1 hc with rfl | hc
    · exact .inr (.inl rfl)
    · exact .inr (.inr ((readNatural?_eq_some.1 hm).1.2 c hc))
  · obtain ⟨m, hm, -⟩ := Option.bind_eq_some_iff.1 h
    exact .inr (.inr ((readNatural?_eq_some.1 hm).1.2 c hc))

/-- Behind its first character, what is read has digits only. -/
theorem isDigit_of_mem_drop (h : readInteger? cs = some n) : ∀ c ∈ cs.drop 1, c.isDigit = true := by
  unfold readInteger? at h
  split at h
  · obtain ⟨m, hm, -⟩ := Option.bind_eq_some_iff.1 h
    exact (readNatural?_eq_some.1 hm).1.2
  · obtain ⟨m, hm, -⟩ := Option.bind_eq_some_iff.1 h
    exact (readNatural?_eq_some.1 hm).1.2
  · obtain ⟨m, hm, -⟩ := Option.bind_eq_some_iff.1 h
    exact fun c hc => (readNatural?_eq_some.1 hm).1.2 c (List.mem_of_mem_drop hc)

/-- What is read and does not begin with a plus sign is a numeral. -/
theorem numeral_of_readInteger? (h : readInteger? cs = some n) (hplus : cs.head? ≠ some '+') :
    Numeral cs n := by
  unfold readInteger? at h
  split at h
  · obtain ⟨m, hm, hn⟩ := Option.bind_eq_some_iff.1 h
    obtain ⟨⟨hne, hds⟩, rfl⟩ := readNatural?_eq_some.1 hm
    rw [← (checked_eq_some.1 hn).1]
    exact .negative hne hds
  · exact absurd rfl hplus
  · obtain ⟨m, hm, hn⟩ := Option.bind_eq_some_iff.1 h
    obtain ⟨⟨hne, hds⟩, rfl⟩ := readNatural?_eq_some.1 hm
    rw [← (checked_eq_some.1 hn).1]
    exact .plain hne hds

/-- Of the texts that do not begin with a plus sign, the numerals of integers that fit are read. -/
theorem readInteger?_eq_some (hplus : cs.head? ≠ some '+') :
    readInteger? cs = some n ↔ Numeral cs n ∧ Fits n := by
  constructor
  · exact fun h => ⟨numeral_of_readInteger? h hplus, fits_of_readInteger? h⟩
  · rintro ⟨h, hn⟩
    exact h.readInteger?_eq.trans (checked_eq_some.2 ⟨rfl, hn⟩)

end Number

open Number

/-- The integer reader reads a numeral of an integer that fits. -/
theorem Reader.readInteger_of_numeral {cs : List Char} {n : Int} (h : Numeral cs n) (hn : Fits n) :
    Reader.readInteger cs = .ok n := by
  have hchecked : checked n = some n := checked_eq_some.2 ⟨rfl, hn⟩
  rw [Reader.readInteger, trim_of_not_blank h.not_blank, h.readInteger?_eq, hchecked]
  rfl

theorem Reader.readInteger_decimal {n : Int} (hn : Fits n) :
    Reader.readInteger (decimal n) = .ok n :=
  readInteger_of_numeral (numeral_decimal n) hn

/-! ### Integers with blanks around them -/

namespace Reader

variable {cs : List Char} {n : Int}

/-- What is read as an integer are digits with a sign in front, and blanks at both ends. -/
theorem exists_of_readInteger (h : readInteger cs = .ok n) :
    ∃ pre sign ds post, cs = pre ++ sign ++ (ds ++ post) ∧ (∀ c ∈ pre, isBlank c = true) ∧
      (sign = [] ∨ sign = ['-'] ∨ sign = ['+']) ∧ (ds ≠ [] ∧ ∀ c ∈ ds, c.isDigit = true) ∧
      ∀ c ∈ post, isBlank c = true := by
  obtain ⟨pre, post, hcs, hpre, hpost⟩ := exists_trim cs
  have hread : Number.readInteger? (trim cs) = some n := orInvalid_eq_ok.1 h
  have hdigits (ds : List Char) {m : Nat} (hm : Number.readNatural? ds = some m) :
      ds ≠ [] ∧ ∀ c ∈ ds, c.isDigit = true :=
    (Number.readNatural?_eq_some.1 hm).1
  unfold Number.readInteger? at hread
  split at hread
  · rename_i ds htrim
    obtain ⟨m, hm, -⟩ := Option.bind_eq_some_iff.1 hread
    refine ⟨pre, ['-'], ds, post, ?_, hpre, .inr (.inl rfl), hdigits ds hm, hpost⟩
    rw [hcs, htrim]
    simp
  · rename_i ds htrim
    obtain ⟨m, hm, -⟩ := Option.bind_eq_some_iff.1 hread
    refine ⟨pre, ['+'], ds, post, ?_, hpre, .inr (.inr rfl), hdigits ds hm, hpost⟩
    rw [hcs, htrim]
    simp
  · obtain ⟨m, hm, -⟩ := Option.bind_eq_some_iff.1 hread
    refine ⟨pre, [], trim cs, post, ?_, hpre, .inl rfl, hdigits _ hm, hpost⟩
    rw [List.append_nil, ← List.append_assoc]
    exact hcs

/-- Without the blanks at its ends, such a text is read as the same integer. -/
theorem readInteger_trim (h : readInteger cs = .ok n) :
    readInteger (trim cs) = .ok n ∧ ∀ c ∈ trim cs, c = '-' ∨ c = '+' ∨ c.isDigit = true := by
  have hread : Number.readInteger? (trim cs) = some n := orInvalid_eq_ok.1 h
  have hmem (c : Char) (hc : c ∈ trim cs) : c = '-' ∨ c = '+' ∨ c.isDigit = true :=
    Number.mem_of_readInteger? hread hc
  have hblank : ∀ c ∈ trim cs, isBlank c = false := by
    intro c hc
    rcases hmem c hc with rfl | rfl | hdigit
    · rfl
    · rfl
    · exact not_blank_of_isAsciiDigit hdigit
  refine ⟨orInvalid_eq_ok.2 ?_, hmem⟩
  rwa [trim_of_not_blank hblank]

theorem mem_of_readInteger (h : readInteger cs = .ok n) {c : Char} (hc : c ∈ cs) :
    isBlank c = true ∨ c = '-' ∨ c = '+' ∨ c.isDigit = true := by
  obtain ⟨pre, sign, ds, post, rfl, hpre, hsign, ⟨-, hds⟩, hpost⟩ := exists_of_readInteger h
  simp only [List.mem_append] at hc
  rcases hc with (hc | hc) | hc | hc
  · exact .inl (hpre c hc)
  · rcases hsign with rfl | rfl | rfl
    · cases hc
    · exact .inr (.inl (List.mem_singleton.1 hc))
    · exact .inr (.inr (.inl (List.mem_singleton.1 hc)))
  · exact .inr (.inr (.inr (hds c hc)))
  · exact .inl (hpost c hc)

theorem not_mem_of_readInteger (h : readInteger cs = .ok n) {c : Char} (hc : c ∈ ['.', 'e', 'E']) :
    c ∉ cs := by
  intro hmem
  have hnot : ¬ (isBlank c = true ∨ c = '-' ∨ c = '+' ∨ c.isDigit = true) := by
    simp only [List.mem_cons, List.not_mem_nil, or_false] at hc
    rcases hc with rfl | rfl | rfl <;> decide
  exact hnot (mem_of_readInteger h hmem)

end Reader

end SearchBox
