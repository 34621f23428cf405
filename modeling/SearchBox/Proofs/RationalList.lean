import Mathlib.Algebra.Field.Basic
import Mathlib.Algebra.Field.Rat
import Mathlib.Data.Rat.Lemmas
import SearchBox.Proofs.CommaList
import SearchBox.Proofs.Grammar
import SearchBox.Proofs.Numeral
import SearchBox.Proofs.Stored
import SearchBox.Proofs.Utf8

/-!
# Boxes of rationals

A `PlainRational` is an unsigned rational as it is written: an integer, a fraction or a decimal.
Some of them are `Readable`, which says that the digits are ASCII ones and that the integers fit.
The reader reads the readable ones as their exact values and refuses all other tokens
(`Reader.plainRational_eq_ok_iff`), and none of the integers that it computes on the way overflows
(`PlainRational.Representable.fits_of_mem_computed`). So the box takes the lists of pieces that are
put together from readable rationals, and stores their values (`Box.call_rationals`).
-/

namespace SearchBox

open Text Number Token

namespace Number

/-! ### Unsigned rationals -/

/-- The number that digits stand for. -/
def natural (ds : List Char) : Nat := Nat.ofDigitChars 10 ds 0

/-- The power of ten for a number of decimal places. -/
def powerOfTen (places : Nat) : Nat := Nat.pow 10 places

/-- An unsigned rational as it is written: the digits of an integer, of a numerator and a
denominator, or before and behind a point. -/
inductive PlainRational
  | whole (ds : List Char)
  | fraction (above below : List Char)
  | decimal (before behind : List Char)

namespace PlainRational

/-- What is written. -/
@[simp] def text : PlainRational → List Char
  | whole ds => ds
  | fraction above below => above ++ '/' :: below
  | decimal before behind => before ++ '.' :: behind

/-- The runs of digits. -/
@[simp] def runs : PlainRational → List (List Char)
  | whole ds => [ds]
  | fraction above below => [above, below]
  | decimal before behind => [before, behind]

/-- The rational that is meant. -/
def value : PlainRational → Rat
  | whole ds => natural ds
  | fraction above below => natural above / natural below
  | decimal before behind => natural before + natural behind / powerOfTen behind.length

/-- The integers fit and none is divided by zero. A decimal has at most eighteen places, and is a
fraction over a power of ten. -/
def Representable : PlainRational → Prop
  | whole ds => Fits (natural ds)
  | fraction above below => Fits (natural above) ∧ Fits (natural below) ∧ natural below ≠ 0
  | decimal before behind => behind.length ≤ 18 ∧ Fits (natural before) ∧
      Fits (natural before * powerOfTen behind.length + natural behind)

/-- The integers that are computed when the rational is read. -/
def computed : PlainRational → List Int
  | whole ds => [natural ds]
  | fraction above below => [natural above, natural below]
  | decimal before behind =>
    [powerOfTen behind.length, natural before, natural behind,
      natural before * powerOfTen behind.length,
      natural before * powerOfTen behind.length + natural behind]

/-- The digits are ASCII ones, and the rational can be represented. -/
structure Readable (x : PlainRational) : Prop where
  ne_nil : ∀ ds ∈ x.runs, ds ≠ []
  isAscii : ∀ ds ∈ x.runs, ∀ c ∈ ds, c.isDigit = true
  representable : x.Representable

end PlainRational

/-! ### Integers and their quotients -/

variable {ds a b : List Char} {n : Int}

theorem powerOfTen_pos (places : Nat) : 0 < powerOfTen places :=
  Nat.pow_pos (by decide)

theorem fits_powerOfTen {places : Nat} (h : places ≤ 18) : Fits (powerOfTen places) := by
  have hle : powerOfTen places ≤ powerOfTen 18 := Nat.pow_le_pow_right (by decide) h
  have hlast : powerOfTen 18 = 1000000000000000000 := rfl
  unfold Fits leastInteger greatestInteger
  omega

/-- What lies between zero and an integer that fits does fit. -/
theorem fits_of_le {m n : Nat} (h : m ≤ n) (hn : Fits n) : Fits m := by
  unfold Fits leastInteger greatestInteger at *
  omega

theorem intCast_div_natCast (m : Int) (d : Nat) : (m : Rat) / d = Rat.divInt m d := by
  rw [Rat.divInt_eq_div, Int.cast_natCast]

theorem natCast_div_natCast (m d : Nat) : (m : Rat) / d = Rat.divInt m d := by
  rw [← Int.cast_natCast m, intCast_div_natCast]

/-- **A quotient in lowest terms fits if the numbers do.** -/
theorem fits_num_den {m : Int} {d : Nat} (hm : Fits m) (hd : Fits d) (hne : d ≠ 0) :
    Fits ((m : Rat) / d).num ∧ Fits ((m : Rat) / d).den := by
  have hpos : (0 : Int) < d := by omega
  rw [intCast_div_natCast]
  have hnum : (Rat.divInt m d).num ∣ m := Rat.num_dvd m hpos.ne'
  have hden : ((Rat.divInt m d).den : Int) ∣ d := Rat.den_dvd m d
  constructor
  · rcases eq_or_ne m 0 with rfl | hm0
    · rw [Rat.zero_divInt]
      decide
    · -- The least integer has no opposite that fits, so the sign matters.
      have hsign : 0 ≤ (Rat.divInt m d).num ↔ 0 ≤ m :=
        Rat.num_nonneg.trans (Rat.divInt_nonneg_iff_of_pos_right hpos)
      have hle : (Rat.divInt m d).num.natAbs ≤ m.natAbs :=
        Nat.le_of_dvd (Int.natAbs_pos.2 hm0) (Int.natAbs_dvd_natAbs.2 hnum)
      unfold Fits leastInteger greatestInteger at *
      omega
  · exact fits_of_le (Int.ofNat_le.1 (Int.le_of_dvd hpos hden)) hd

namespace PlainRational

variable {x : PlainRational}

/-- A decimal is a fraction over a power of ten. -/
theorem value_decimal (before behind : List Char) :
    (decimal before behind).value =
      Rat.divInt (natural before * powerOfTen behind.length + natural behind)
        (powerOfTen behind.length) := by
  have hne : (powerOfTen behind.length : Rat) ≠ 0 :=
    Nat.cast_ne_zero.2 (powerOfTen_pos behind.length).ne'
  rw [← Int.natCast_mul, ← Int.natCast_add, ← natCast_div_natCast, value, Nat.cast_add,
    Nat.cast_mul, add_div, mul_div_cancel_right₀ _ hne]

/-- **The integers that are computed for a rational that can be represented fit.** -/
theorem Representable.fits_of_mem_computed (h : x.Representable) : ∀ n ∈ x.computed, Fits n := by
  cases x with
  | whole ds => simpa [computed] using show Fits (natural ds) from h
  | fraction above below => simpa [computed] using And.intro h.1 h.2.1
  | decimal before behind =>
    obtain ⟨hplaces, hbefore, hsum⟩ := h
    have hsum' : Fits (natural before * powerOfTen behind.length + natural behind : Nat) := by
      simpa using hsum
    have hbehind : Fits (natural behind) := fits_of_le (Nat.le_add_left _ _) hsum'
    have hproduct : Fits (natural before * powerOfTen behind.length : Nat) :=
      fits_of_le (Nat.le_add_right _ _) hsum'
    have hproduct' : Fits (natural before * powerOfTen behind.length) := by simpa using hproduct
    simpa [computed] using ⟨fits_powerOfTen hplaces, hbefore, hbehind, hproduct', hsum⟩

theorem Representable.exists_eq_div (h : x.Representable) :
    ∃ m d : Nat, Fits m ∧ Fits d ∧ d ≠ 0 ∧ x.value = m / d := by
  cases x with
  | whole ds => exact ⟨natural ds, 1, h, by decide, by decide, by simp [value]⟩
  | fraction above below => exact ⟨natural above, natural below, h.1, h.2.1, h.2.2, rfl⟩
  | decimal before behind =>
    obtain ⟨hplaces, -, hsum⟩ := h
    refine ⟨natural before * powerOfTen behind.length + natural behind, powerOfTen behind.length,
      by simpa using hsum, fits_powerOfTen hplaces, (powerOfTen_pos _).ne', ?_⟩
    rw [value_decimal, natCast_div_natCast, Int.natCast_add, Int.natCast_mul]

/-- **The value of such a rational fits in lowest terms.** -/
theorem Representable.fits_value (h : x.Representable) : Fits x.value.num ∧ Fits x.value.den := by
  obtain ⟨m, d, hm, hd, hne, hvalue⟩ := h.exists_eq_div
  rw [hvalue, ← Int.cast_natCast m]
  exact fits_num_den hm hd hne

theorem Readable.isDigits (hx : x.Readable) : ∀ ds ∈ x.runs, isDigits ds = true := fun ds hds =>
  isDigits_of_isAsciiDigit (hx.ne_nil ds hds) (hx.isAscii ds hds)

theorem readable_iff (h : ∀ ds ∈ x.runs, Text.isDigits ds = true) :
    x.Readable ↔ (∀ ds ∈ x.runs, ∀ c ∈ ds, c.isDigit = true) ∧ x.Representable := by
  constructor
  · exact fun hx => ⟨hx.isAscii, hx.representable⟩
  · rintro ⟨hascii, hx⟩
    exact ⟨fun ds hds => (isDigits_eq_true.1 (h ds hds)).1, hascii, hx⟩

/-- The tokens of the grammar are the unsigned rationals, with digits of any script. -/
theorem isPlainRational_iff_exists {t : List Char} : isPlainRational t = true ↔
    ∃ x : PlainRational, x.text = t ∧ ∀ ds ∈ x.runs, Text.isDigits ds = true := by
  rw [isPlainRational_iff]
  constructor
  · rintro (ht | ⟨mark, a, b, rfl | rfl, rfl, ha, hb⟩)
    · exact ⟨.whole t, rfl, by simpa using ht⟩
    · exact ⟨.decimal a b, rfl, by simpa using ⟨ha, hb⟩⟩
    · exact ⟨.fraction a b, rfl, by simpa using ⟨ha, hb⟩⟩
  · rintro ⟨x, rfl, hx⟩
    cases x with
    | whole ds => exact .inl (hx ds (by simp))
    | fraction a b =>
      exact .inr ⟨'/', a, b, .inr rfl, rfl, hx a (by simp), hx b (by simp)⟩
    | decimal a b =>
      exact .inr ⟨'.', a, b, .inl rfl, rfl, hx a (by simp), hx b (by simp)⟩

end PlainRational

/-! ### Reading digits -/

/-- Digits are read if they are ASCII ones and their number fits. -/
theorem readInteger?_of_isDigits (hds : isDigits ds = true) :
    readInteger? ds = some n ↔
      (∀ c ∈ ds, c.isDigit = true) ∧ Fits (natural ds) ∧ (natural ds : Int) = n := by
  obtain ⟨hne, hdigits⟩ := isDigits_eq_true.1 hds
  obtain ⟨c, cs, rfl⟩ := List.exists_cons_of_ne_nil hne
  have hminus : c ≠ '-' := by
    rintro rfl
    exact absurd (hdigits '-' (by simp)) (by decide)
  have hplus : c ≠ '+' := by
    rintro rfl
    exact absurd (hdigits '+' (by simp)) (by decide)
  rw [readInteger?_of_not_sign hminus hplus, Option.bind_eq_some_iff]
  simp only [readNatural?_eq_some, checked_eq_some]
  constructor
  · rintro ⟨m, ⟨⟨-, hascii⟩, rfl⟩, rfl, hfits⟩
    exact ⟨hascii, hfits, rfl⟩
  · rintro ⟨hascii, hfits, rfl⟩
    exact ⟨natural (c :: cs), ⟨⟨hne, hascii⟩, rfl⟩, rfl, hfits⟩

/-- Where all digits are ASCII ones, the decimal places are the characters. -/
theorem utf8Length_of_isAscii (h : ∀ c ∈ ds, c.isDigit = true) : utf8Length ds = ds.length := by
  induction ds with
  | nil => rfl
  | cons c ds ih =>
    rw [List.forall_mem_cons] at h
    have hsize : c.utf8Size = 1 := utf8Size_of_lt (toNat_lt_of_isDigit h.1)
    rw [utf8Length_cons, hsize, ih h.2, List.length_cons, Nat.add_comm]

end Number

/-! ### Reading tokens -/

theorem Reader.decimalPlaces_of_isAscii {ds : List Char} (h : ∀ c ∈ ds, c.isDigit = true)
    (hlength : ds.length < 4294967296) : Reader.decimalPlaces ds = ds.length := by
  rw [Reader.decimalPlaces, utf8Length_of_isAscii h, Nat.mod_eq_of_lt hlength]

namespace Reader

variable {a b t : List Char} {q : Rat} {x : PlainRational}

/-- A signed integer is read as a rational if it is read. -/
theorem readFraction_of_isSigned (ht : isSigned t = true) :
    readFraction t = .ok q ↔ ∃ n, readInteger? t = some n ∧ (n : Rat) = q := by
  have hfraction : isFraction t = true := isFraction_iff.2 (.inl ht)
  have hslash : '/' ∉ t := fun hmem => absurd (mem_of_isSigned ht hmem) (by decide)
  unfold readFraction
  simp only [hfraction, cut_eq_none.2 hslash, Bool.not_true, Bool.false_eq_true, if_false,
    map_eq_ok, orInvalid_eq_ok]

/-- A fraction is read if both integers are, and the lower one is not zero. -/
theorem readFraction_slash (ha : isSigned a = true) (hb : isDigits b = true) :
    readFraction (a ++ '/' :: b) = .ok q ↔
      ∃ m d, readInteger? a = some m ∧ readInteger? b = some d ∧ d ≠ 0 ∧ Rat.divInt m d = q := by
  have hfraction : isFraction (a ++ '/' :: b) = true := isFraction_iff.2 (.inr ⟨a, b, rfl, ha, hb⟩)
  have hslash : '/' ∉ a := fun hmem => absurd (mem_of_isSigned ha hmem) (by decide)
  unfold readFraction
  simp only [hfraction, cut_append_cons hslash, Bool.not_true, Bool.false_eq_true, if_false]
  cases readInteger? a with
  | none => simp
  | some m =>
    cases readInteger? b with
    | none => simp
    | some d => by_cases hd : d = 0 <;> simp [hd]

/-- A fraction of digits is read if both numbers fit, and the lower one is not zero. -/
theorem readFraction_eq_ok_iff (ha : isDigits a = true) (hb : isDigits b = true) :
    readFraction (a ++ '/' :: b) = .ok q ↔
      (PlainRational.fraction a b).Readable ∧ (PlainRational.fraction a b).value = q := by
  rw [readFraction_slash (isSigned_of_isDigits ha) hb,
    PlainRational.readable_iff (by simpa using ⟨ha, hb⟩)]
  simp only [readInteger?_of_isDigits ha, readInteger?_of_isDigits hb, PlainRational.runs,
    List.forall_mem_cons, List.not_mem_nil, false_imp_iff, implies_true, and_true]
  constructor
  · rintro ⟨_, _, ⟨hascii, hfits, rfl⟩, ⟨hascii', hfits', rfl⟩, hne, rfl⟩
    exact ⟨⟨⟨hascii, hascii'⟩, hfits, hfits', Int.natCast_ne_zero.1 hne⟩, natCast_div_natCast _ _⟩
  · rintro ⟨⟨⟨hascii, hascii'⟩, hfits, hfits', hne⟩, rfl⟩
    exact ⟨_, _, ⟨hascii, hfits, rfl⟩, ⟨hascii', hfits', rfl⟩, Int.natCast_ne_zero.2 hne,
      (natCast_div_natCast _ _).symm⟩

/-- A decimal is read if its numerator over the power of ten fits. -/
theorem decimalFraction?_eq_some_iff (ha : isDigits a = true) (hb : isDigits b = true)
    (hlength : b.length < 4294967296) :
    decimalFraction? a b = some q ↔
      (PlainRational.decimal a b).Readable ∧ (PlainRational.decimal a b).value = q := by
  rw [PlainRational.readable_iff (by simpa using ⟨ha, hb⟩)]
  simp only [PlainRational.runs, List.forall_mem_cons, List.not_mem_nil, false_imp_iff,
    implies_true, and_true]
  unfold decimalFraction?
  constructor
  · intro h
    split at h
    · cases h
    · rename_i hplaces
      simp only [Option.bind_eq_some_iff, Option.map_eq_some_iff, readInteger?_of_isDigits ha,
        readInteger?_of_isDigits hb, checked_eq_some] at h
      obtain ⟨_, ⟨hascii, hfits, rfl⟩, _, ⟨hascii', -, rfl⟩, _, ⟨rfl, -⟩, _, ⟨rfl, hsum⟩, rfl⟩ := h
      rw [decimalPlaces_of_isAscii hascii' hlength] at hplaces hsum ⊢
      exact ⟨⟨⟨hascii, hascii'⟩, by omega, hfits, hsum⟩, PlainRational.value_decimal a b⟩
  · rintro ⟨⟨⟨hascii, hascii'⟩, hx⟩, rfl⟩
    have hfits := PlainRational.Representable.fits_of_mem_computed hx
    simp only [PlainRational.computed, powerOfTen, List.forall_mem_cons] at hfits
    obtain ⟨-, hbefore, hbehind, hproduct, hsum, -⟩ := hfits
    rw [decimalPlaces_of_isAscii hascii' hlength, if_neg (Nat.not_lt.2 hx.1),
      (readInteger?_of_isDigits ha).2 ⟨hascii, hbefore, rfl⟩,
      (readInteger?_of_isDigits hb).2 ⟨hascii', hbehind, rfl⟩]
    simp only [Option.bind_some, checked_eq_some.2 ⟨rfl, hproduct⟩, checked_eq_some.2 ⟨rfl, hsum⟩,
      Option.map_some, PlainRational.value_decimal, powerOfTen]

/-- **What is written with digits is read if it is readable, and then as its value.** -/
theorem readPlainRational_text (hx : ∀ ds ∈ x.runs, isDigits ds = true)
    (hlength : x.text.length < 4294967296) :
    readPlainRational x.text = .ok q ↔ x.Readable ∧ x.value = q := by
  have hplain : isPlainRational x.text = true :=
    PlainRational.isPlainRational_iff_exists.2 ⟨x, rfl, hx⟩
  unfold readPlainRational
  rw [hplain, Bool.not_true, if_neg Bool.false_ne_true]
  cases x with
  | whole ds =>
    have hds : isDigits ds = true := hx ds (by simp)
    have hslash : ¬ ds.contains '/' = true := by
      simpa using not_mem_of_isDigits (c := '/') rfl hds
    have hdot : '.' ∉ ds := not_mem_of_isDigits rfl hds
    rw [PlainRational.text, if_neg hslash, cut_eq_none.2 hdot, PlainRational.readable_iff hx]
    simp only [map_eq_ok, orInvalid_eq_ok, readInteger?_of_isDigits hds, PlainRational.runs,
      List.forall_mem_cons, List.not_mem_nil, false_imp_iff, implies_true, and_true]
    constructor
    · rintro ⟨_, ⟨hascii, hfits, rfl⟩, rfl⟩
      exact ⟨⟨hascii, hfits⟩, rfl⟩
    · rintro ⟨⟨hascii, hfits⟩, rfl⟩
      exact ⟨_, ⟨hascii, hfits, rfl⟩, rfl⟩
  | fraction a b =>
    obtain ⟨ha, hb⟩ : isDigits a = true ∧ isDigits b = true := by
      simpa using hx
    have hslash : (a ++ '/' :: b).contains '/' = true := by simp
    rw [PlainRational.text, if_pos hslash]
    exact readFraction_eq_ok_iff ha hb
  | decimal a b =>
    obtain ⟨ha, hb⟩ : isDigits a = true ∧ isDigits b = true := by
      simpa using hx
    have hslash : ¬ (a ++ '.' :: b).contains '/' = true := by
      simpa using And.intro (not_mem_of_isDigits (c := '/') rfl ha)
        (not_mem_of_isDigits (c := '/') rfl hb)
    have hplaces : b.length < 4294967296 := by
      refine Nat.lt_of_le_of_lt ?_ hlength
      rw [PlainRational.text, List.length_append, List.length_cons]
      omega
    rw [PlainRational.text, if_neg hslash, cut_append_cons (not_mem_of_isDigits rfl ha),
      orInvalid_eq_ok]
    exact decimalFraction?_eq_some_iff ha hb hplaces

/-- **The reader reads the readable rationals as their values**, and refuses all other tokens. -/
theorem plainRational_eq_ok_iff (ht : t.length < 4294967296) {v : Scalar} :
    plainRational t = .ok v ↔
      ∃ x : PlainRational, x.Readable ∧ x.text = t ∧ .rational x.value = v := by
  rw [plainRational, map_eq_ok]
  constructor
  · rintro ⟨q, hq, rfl⟩
    have hplain : isPlainRational t = true := by
      by_contra hnot
      rw [readPlainRational, if_pos (by simpa using hnot)] at hq
      cases hq
    obtain ⟨x, rfl, hx⟩ := PlainRational.isPlainRational_iff_exists.1 hplain
    obtain ⟨hreadable, rfl⟩ := (readPlainRational_text hx ht).1 hq
    exact ⟨x, hreadable, rfl, rfl⟩
  · rintro ⟨x, hx, rfl, rfl⟩
    exact ⟨x.value, (readPlainRational_text hx.isDigits ht).2 ⟨hx, rfl⟩, rfl⟩

end Reader

/-! ### Pieces -/

/-- The piece is a readable rational, or one with a dash behind it, or two with a dash between, and
the constraint has their values as the value, as the lower bound or as both bounds. -/
inductive RationalPiece : List Char → Constraint → Prop
  | value {x : PlainRational} (hx : x.Readable) :
    RationalPiece x.text (.value (.rational x.value))
  | atLeast {x : PlainRational} (hx : x.Readable) :
    RationalPiece (x.text ++ ['-']) (.range (some (.rational x.value)) none)
  | interval {x y : PlainRational} (hx : x.Readable) (hy : y.Readable) :
    RationalPiece (x.text ++ '-' :: y.text)
      (.range (some (.rational x.value)) (some (.rational y.value)))

variable {p : List Char} {c : Constraint}

/-- A piece that is a plain rational has no separator, so it makes no difference that it is read at
once. -/
theorem Range.ofRationalPiece_eq (read : Reader) (p : List Char) :
    ofRationalPiece read p = ofPiece (.plain read) p := by
  unfold ofRationalPiece
  split
  · rename_i hplain
    rw [ofPiece, Style.plain, (unbroken_of_isPlainRational hplain).split?_eq]
  · rfl

theorem Range.ofRationalPiece_of_spells {r : Reading} (hr : r.Spells isPlainRational p)
    (read : Reader) : ofRationalPiece read p = r.constraint read := by
  rw [ofRationalPiece_eq, ← hr.text_eq]
  exact ofPiece_text read fun t ht => unbroken_of_isPlainRational (hr.isToken_of_mem t ht)

namespace RationalPiece

theorem isPlainRational {x : PlainRational} (hx : x.Readable) :
    Token.isPlainRational x.text = true :=
  PlainRational.isPlainRational_iff_exists.2 ⟨x, rfl, hx.isDigits⟩

/-- **The pieces that are accepted and compiled are those of readable rationals.** -/
theorem iff_compiled (hp : p.length < 4294967296) :
    RationalPiece p c ↔
      isRationalPiece p = true ∧ Range.ofRationalPiece Reader.plainRational p = .ok c := by
  have hread {r : Reading} (hr : r.text = p) {t : List Char} (ht : t ∈ r.tokens) {v : Scalar} :
      Reader.plainRational t = .ok v ↔
        ∃ x : PlainRational, x.Readable ∧ x.text = t ∧ .rational x.value = v := by
    have hlength := (Reading.infix_text ht).length_le
    rw [hr] at hlength
    exact Reader.plainRational_eq_ok_iff (Nat.lt_of_le_of_lt hlength hp)
  constructor
  · intro h
    obtain ⟨r, hr, hc⟩ : ∃ r : Reading, r.Spells Token.isPlainRational p ∧
        r.constraint Reader.plainRational = .ok c := by
      cases h with
      | @value x hx =>
        have hr := Reading.Spells.value (isPlainRational hx)
        have hv := (hread hr.text_eq (by simp [Reading.tokens])).2 ⟨x, hx, rfl, rfl⟩
        exact ⟨_, hr, map_eq_ok.2 ⟨_, hv, rfl⟩⟩
      | @atLeast x hx =>
        have hr := Reading.Spells.atLeast (isPlainRational hx)
        have hv := (hread hr.text_eq (by simp [Reading.tokens])).2 ⟨x, hx, rfl, rfl⟩
        exact ⟨_, hr, map_eq_ok.2 ⟨_, hv, rfl⟩⟩
      | @interval x y hx hy =>
        have hr := Reading.Spells.interval (isPlainRational hx) (isPlainRational hy)
        have hv := (hread hr.text_eq (by simp [Reading.tokens])).2 ⟨x, hx, rfl, rfl⟩
        have hw := (hread hr.text_eq (by simp [Reading.tokens])).2 ⟨y, hy, rfl, rfl⟩
        exact ⟨_, hr, bind_eq_ok.2 ⟨_, hv, map_eq_ok.2 ⟨_, hw, rfl⟩⟩⟩
    exact ⟨isRationalPiece_iff.2 ⟨r, hr⟩, (Range.ofRationalPiece_of_spells hr _).trans hc⟩
  · rintro ⟨hpiece, hc⟩
    obtain ⟨r, hr⟩ := isRationalPiece_iff.1 hpiece
    rw [Range.ofRationalPiece_of_spells hr] at hc
    obtain ⟨rfl, -⟩ := hr
    cases r with
    | value a =>
      obtain ⟨v, hv, rfl⟩ := map_eq_ok.1 hc
      obtain ⟨x, hx, rfl, rfl⟩ := (hread rfl (by simp [Reading.tokens])).1 hv
      exact .value hx
    | atLeast a =>
      obtain ⟨v, hv, rfl⟩ := map_eq_ok.1 hc
      obtain ⟨x, hx, rfl, rfl⟩ := (hread rfl (by simp [Reading.tokens])).1 hv
      exact .atLeast hx
    | interval a b =>
      obtain ⟨v, hv, hc⟩ := bind_eq_ok.1 hc
      obtain ⟨w, hw, rfl⟩ := map_eq_ok.1 hc
      obtain ⟨x, hx, rfl, rfl⟩ := (hread rfl (by simp [Reading.tokens])).1 hv
      obtain ⟨y, hy, rfl, rfl⟩ := (hread rfl (by simp [Reading.tokens])).1 hw
      exact .interval hx hy

/-- What is stored for a piece is the value of a rational that stands in it. -/
theorem exists_of_stores (h : RationalPiece p c) {v : Scalar} (hv : c.Stores v) :
    ∃ x : PlainRational, x.Readable ∧ x.text <:+: p ∧ .rational x.value = v := by
  cases h with
  | @value x hx => exact ⟨x, hx, List.infix_rfl, (Constraint.stores_value.1 hv).symm⟩
  | @atLeast x hx =>
    rcases Constraint.stores_range.1 hv with hv | hv
    · exact ⟨x, hx, (List.prefix_append _ _).isInfix, Option.some.inj hv⟩
    · cases hv
  | @interval x y hx hy =>
    rcases Constraint.stores_range.1 hv with hv | hv
    · exact ⟨x, hx, (List.prefix_append _ _).isInfix, Option.some.inj hv⟩
    · exact ⟨y, hy, ((List.suffix_cons '-' _).trans (List.suffix_append _ _)).isInfix,
        Option.some.inj hv⟩

end RationalPiece

/-! ### Lists -/

theorem length_le_utf8Length (cs : List Char) : cs.length ≤ utf8Length cs := by
  induction cs with
  | nil => exact Nat.le_refl 0
  | cons c cs ih =>
    have hpos := c.utf8Size_pos
    rw [List.length_cons, utf8Length_cons]
    omega

namespace Box

variable {form : Form} {args : Arguments} {field raw : String}

/-- **The box of rationals is exact.** On the empty query, let a text be typed that has no blanks
between digits, and fewer bytes than a counter of 32 bits can hold. It is taken if and only if, once
it is cleaned, every piece is put together from readable rationals. Then their values are stored,
those of a single piece in a field and those of several pieces in alternatives in their order.
Nothing else is stored, no integer that was computed for a value overflowed, and in lowest terms the
value fits. -/
theorem call_rationals (ht : Kind.rationals.box.typed? form args = some (field, raw))
    (hspaces : Cleaning.checkSpaces raw.toList = .ok ())
    (hsize : utf8Length raw.toList < 4294967296) :
    let key := (Kind.rationals.box.contextOf args field).key
    let ps := pieces ',' (Kind.rationals.box.policy.prepare raw.toList)
    let out := Kind.rationals.box.call form .empty args
    (out.result = .ok () ↔ ∃ cs, List.Forall₂ RationalPiece ps cs) ∧
    ∀ cs, List.Forall₂ RationalPiece ps cs →
      out.query = (Range.fragmentOf key cs).query ∧
      ∀ v, out.query.Stores v → ∃ x : PlainRational,
        x.Readable ∧ (∃ p ∈ ps, x.text <:+: p) ∧ v = .rational x.value ∧
        (∀ n ∈ x.computed, Fits n) ∧ Fits x.value.num ∧ Fits x.value.den := by
  intro key ps out
  have hlength : ∀ p ∈ ps, p.length < 4294967296 := by
    intro p hp
    calc p.length
        ≤ (Kind.rationals.box.policy.prepare raw.toList).length :=
          (infix_of_mem_pieces hp).length_le
      _ ≤ raw.toList.length := isCommaList_rationals.cleans.length_prepare_le _
      _ ≤ utf8Length raw.toList := length_le_utf8Length _
      _ < 4294967296 := hsize
  have hcompiled (cs : List Constraint) :
      List.Forall₂ (fun p c => isRationalPiece p = true ∧
        Range.ofRationalPiece Reader.plainRational p = .ok c) ps cs ↔
      List.Forall₂ RationalPiece ps cs := by
    constructor
    · intro h
      refine List.Forall₂.imp ?_ ((List.forall₂_and_left _ _).2 ⟨hlength, h⟩)
      exact fun p c hpc => (RationalPiece.iff_compiled hpc.1).2 hpc.2
    · intro h
      refine List.Forall₂.imp ?_ ((List.forall₂_and_left _ _).2 ⟨hlength, h⟩)
      exact fun p c hpc => (RationalPiece.iff_compiled hpc.1).1 hpc.2
  refine ⟨?_, fun cs hcs => ?_⟩
  · rw [isCommaList_rationals.call_ok_iff ht hspaces]
    exact exists_congr hcompiled
  · have hquery : out.query = (Range.fragmentOf key cs).query :=
      (isCommaList_rationals.call_of_forall₂ ht hspaces ((hcompiled cs).2 hcs)).2
    refine ⟨hquery, fun v hv => ?_⟩
    rw [hquery, Range.stores_fragmentOf] at hv
    obtain ⟨c, hc, hstores⟩ := hv
    obtain ⟨p, hp, hpiece⟩ := exists_of_mem_forall₂ hcs hc
    obtain ⟨x, hx, hinfix, rfl⟩ := hpiece.exists_of_stores hstores
    exact ⟨x, hx, ⟨p, hp, hinfix⟩, rfl, hx.representable.fits_of_mem_computed,
      hx.representable.fits_value⟩

/-- A decimal whose numerator is the greatest integer, and an interval with both notations. -/
theorem call_rationals_greatest :
    let box := Kind.rationals.box
    let raw := "922337203685477580.7-, 2/4..0.75"
    let form := Form.ofList [("x", raw)]
    let x : Arguments := { field := some "x" }
    box.typed? form x = some ("x", raw) ∧ Cleaning.checkSpaces raw.toList = .ok () ∧
    utf8Length raw.toList < 4294967296 ∧
    (box.call form .empty x).result = .ok () ∧
    (box.call form .empty x).query =
      .anyOf [.single "x" (.range (some (.rational (mkRat 9223372036854775807 10))) none),
        .single "x" (.range (some (.rational (mkRat 1 2))) (some (.rational (mkRat 3 4))))] := by
  intro box raw form x
  have hx : box.typed? form x = some ("x", raw) := by decide
  have hspaces : Cleaning.checkSpaces raw.toList = .ok () := by decide
  have hsize : utf8Length raw.toList < 4294967296 := by decide
  let greatest : PlainRational := .decimal "922337203685477580".toList "7".toList
  let half : PlainRational := .fraction "2".toList "4".toList
  let threeQuarters : PlainRational := .decimal "0".toList "75".toList
  have hascii (x : PlainRational) (h : x.runs.all (·.all Char.isDigit) = true) :
      ∀ ds ∈ x.runs, ∀ c ∈ ds, c.isDigit = true :=
    fun ds hds => List.all_eq_true.1 (List.all_eq_true.1 h ds hds)
  have hgreatest : greatest.Readable := ⟨by decide, hascii _ rfl, by decide, by decide, by decide⟩
  have hhalf : half.Readable := ⟨by decide, hascii _ rfl, by decide, by decide, by decide⟩
  have hquarters : threeQuarters.Readable :=
    ⟨by decide, hascii _ rfl, by decide, by decide, by decide⟩
  have hpieces : pieces ',' (box.policy.prepare raw.toList) =
      [greatest.text ++ ['-'], half.text ++ '-' :: threeQuarters.text] := by
    decide
  have hcs : List.Forall₂ RationalPiece (pieces ',' (box.policy.prepare raw.toList))
      [.range (some (.rational greatest.value)) none,
        .range (some (.rational half.value)) (some (.rational threeQuarters.value))] := by
    rw [hpieces]
    exact .cons (.atLeast hgreatest) (.cons (.interval hhalf hquarters) .nil)
  obtain ⟨hok, hstored⟩ := call_rationals hx hspaces hsize
  have hvalue : greatest.value = mkRat 9223372036854775807 10 ∧ half.value = mkRat 1 2 ∧
      threeQuarters.value = mkRat 3 4 := by
    decide +kernel
  refine ⟨hx, hspaces, hsize, hok.2 ⟨_, hcs⟩, (hstored _ hcs).1.trans ?_⟩
  rw [hvalue.1, hvalue.2.1, hvalue.2.2]
  rfl

end Box

end SearchBox
