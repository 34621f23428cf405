import SearchBox.Proofs.Vector

/-!
# Signed rationals are read back

A signed rational is written as an integer, or as an integer, a slash and digits (`Written`). The
grammar lets digits of any script pass, and any number of them. Still the reader takes exactly what
is written with ASCII digits if the two numbers fit and the lower one is not zero, and then as their
quotient. Dividing the numbers by their greatest common divisor needs no integer that does not fit
(`reduced_div`), and what is shown for a rational is read back (`Reader.rational_exact`).
-/

namespace SearchBox

open Text Number Token

namespace Number

/-- The numerator and the denominator that are written in a text: a numeral alone, or one with a
slash and ASCII digits behind it. -/
inductive Written : List Char → Int → Nat → Prop
  | whole {cs : List Char} {n : Int} (h : Numeral cs n) : Written cs n 1
  | fraction {cs ds : List Char} {n : Int} (h : Numeral cs n) (hne : ds ≠ [])
    (hds : ∀ c ∈ ds, c.isDigit = true) : Written (cs ++ '/' :: ds) n (natural ds)

/-- The rational is `n` over `d` in lowest terms, and the divisor that is taken out of the two fits,
as do the numbers that remain. -/
structure Reduced (n : Int) (d : Nat) (q : Rat) : Prop where
  num_eq : q.num = n / Int.gcd n d
  den_eq : q.den = d / Int.gcd n d
  coprime : q.num.natAbs.Coprime q.den
  fits_gcd : Fits (Int.gcd n d)
  fits_num : Fits q.num
  fits_den : Fits q.den

variable {n : Int} {d : Nat} {t : List Char} {v : Scalar}

/-- **A quotient is reduced without overflow.** The divisor is at most the denominator, and the
numerator keeps its sign, so that also the least integer causes none. -/
theorem reduced_div (hn : Fits n) (hd : Fits d) (hne : d ≠ 0) : Reduced n d (n / d) := by
  have hdvd : Int.gcd n d ∣ d := Int.ofNat_dvd.1 (Int.gcd_dvd_right n d)
  have hpos : 0 < Int.gcd n d := Nat.pos_of_dvd_of_pos hdvd (Nat.pos_of_ne_zero hne)
  have hgcd : Fits (Int.gcd n d) := fits_of_le (Nat.le_of_dvd (Nat.pos_of_ne_zero hne) hdvd) hd
  obtain ⟨hnum, hden⟩ := fits_num_den hn hd hne
  refine ⟨?_, ?_, Rat.reduced _, hgcd, hnum, hden⟩
  · rw [intCast_div_natCast, Rat.num_divInt, Int.gcd_comm, Int.sign_natCast_of_ne_zero hne, one_mul]
  · rw [intCast_div_natCast, Rat.den_divInt, if_neg (Int.natCast_ne_zero.2 hne), Int.gcd_comm,
      Int.natAbs_natCast]

end Number

namespace Reader

variable {n : Int} {d : Nat} {t : List Char} {v : Scalar}

theorem isFraction_of_rational (h : rational t = .ok v) : isFraction t = true := by
  obtain ⟨q, hq, -⟩ := map_eq_ok.1 h
  by_contra hnot
  rw [readFraction, if_pos (by simpa using hnot)] at hq
  cases hq

/-- A signed rational stands alone as it stands in a vector. -/
theorem rational_eq_ok : rational t = .ok v ↔ Kind.rationalVector.VectorItem t v := by
  rw [Kind.vectorItem_iff (k := .rationalVector) trivial]
  exact ⟨fun h => ⟨isFraction_of_rational h, h⟩, And.right⟩

/-- **The reader takes exactly the quotients that are written**, as far as their numbers fit. -/
theorem rational_eq_ok_iff : rational t = .ok v ↔
    ∃ n d, Written t n d ∧ Fits n ∧ Fits d ∧ d ≠ 0 ∧ v = .rational (n / d) := by
  rw [rational_eq_ok]
  constructor
  · intro h
    cases h with
    | @whole _ n h hn => exact ⟨n, 1, .whole h, hn, by decide, by decide, by simp⟩
    | fraction h hn hne hds hd hzero =>
      exact ⟨_, _, .fraction h hne hds, hn, hd, hzero, rfl⟩
  · rintro ⟨n, d, hwritten, hn, hd, hzero, rfl⟩
    cases hwritten with
    | whole h => simpa using Kind.VectorItem.whole h hn
    | fraction h hne hds => exact .fraction h hn hne hds hd hzero

/-- What is shown for a rational whose numbers fit is read as that rational. -/
theorem rational_shown {q : Rat} (hnum : Fits q.num) (hden : Fits q.den) :
    rational (Scalar.rational q).shown = .ok (.rational q) :=
  rational_eq_ok.2 (Kind.vectorItem_shown (.rational hnum hden))

/-- **Signed rationals are read exactly, and read back.** What is shown for two numbers in lowest
terms that fit, the lower one positive, is read as their quotient, which has these numbers. A text
is read if and only if it is an integer, or an integer, a slash and digits, all digits ASCII ones,
and the numbers fit and the lower one is not zero; then it is read as their quotient. In lowest
terms the quotient has a positive denominator and numbers that fit, and no greater integer is needed
to find them. -/
theorem rational_exact :
    (∀ (n : Int) (d : Nat), Fits n → Fits d → 0 < d → Int.gcd n d = 1 →
      rational (Scalar.rational (n / d)).shown = .ok (.rational (n / d)) ∧
        (n / d : Rat).num = n ∧ (n / d : Rat).den = d) ∧
    (∀ t v, rational t = .ok v ↔
      ∃ n d, Written t n d ∧ Fits n ∧ Fits d ∧ d ≠ 0 ∧ v = .rational (n / d)) ∧
    ∀ (n : Int) (d : Nat), Fits n → Fits d → d ≠ 0 → Reduced n d (n / d) := by
  refine ⟨fun n d hn hd hpos hgcd => ?_, fun t v => rational_eq_ok_iff, fun n d => reduced_div⟩
  have hreduced := reduced_div hn hd hpos.ne'
  refine ⟨rational_shown hreduced.fits_num hreduced.fits_den, ?_, ?_⟩
  · rw [hreduced.num_eq, hgcd, Int.natCast_one, Int.ediv_one]
  · rw [hreduced.den_eq, hgcd, Nat.div_one]

/-- The least integer over the greatest one is shown and read back, and over six it loses a factor.
-/
theorem rational_exact_least :
    rational (Scalar.rational (leastInteger / (9223372036854775807 : Nat))).shown =
      .ok (.rational (leastInteger / (9223372036854775807 : Nat))) ∧
    rational "-9223372036854775808/06".toList = .ok (.rational (leastInteger / (6 : Nat))) ∧
    Reduced leastInteger 6 (leastInteger / (6 : Nat)) ∧ Int.gcd leastInteger 6 = 2 := by
  obtain ⟨hshown, hread, hreduced⟩ := rational_exact
  have hgreatest : Fits (9223372036854775807 : Nat) := by decide
  have hleast : Fits leastInteger := by decide
  have hcoprime : Int.gcd leastInteger (9223372036854775807 : Nat) = 1 := by decide +kernel
  have hnumeral : Numeral ('-' :: "9223372036854775808".toList) leastInteger :=
    .negative (by decide) (by simp)
  have hwritten :
      Written ('-' :: "9223372036854775808".toList ++ '/' :: "06".toList) leastInteger 6 :=
    .fraction hnumeral (by decide) (by simp)
  have htext : "-9223372036854775808/06".toList =
      '-' :: "9223372036854775808".toList ++ '/' :: "06".toList := by decide
  refine ⟨(hshown _ _ hleast hgreatest (by decide) hcoprime).1, (hread _ _).2 ?_,
    hreduced _ _ hleast (by decide) (by decide), by decide +kernel⟩
  rw [htext]
  exact ⟨_, _, hwritten, hleast, by decide, by decide, rfl⟩

end Reader

end SearchBox
