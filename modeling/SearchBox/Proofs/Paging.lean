import Mathlib.Data.Int.ModEq
import SearchBox.Paging
import SearchBox.Proofs.Box
import SearchBox.Proofs.Numeral

/-!
# Where the page begins

The count that is used is positive and is written into the form, so that asking for it again changes
nothing (`HasCount.count_eq`). A negative start is moved by whole pages to the place that `IsWrapped`
describes: congruent to it modulo the count, in the last place of the first page or behind it, less
than a page further on. There is exactly one such place (`existsUnique_isWrapped`), and `wrapped`
finds it unless the pages that are passed do not fit into 64 bits (`wrapped_eq`). No step before
that leaves the 64-bit integers (`fits_page`).
-/

namespace SearchBox.Paging

open Number

/-! ### Pages -/

section Wrapped

variable {count start w : Int}

/-- The place that a negative start stands for: as far into its page as the start is, and in the
last place of the first page or less than a page behind it. -/
def IsWrapped (count start w : Int) : Prop :=
  w ≡ start [ZMOD count] ∧ count - 1 ≤ w ∧ w ≤ 2 * count - 2

instance (count start w : Int) : Decidable (IsWrapped count start w) :=
  inferInstanceAs (Decidable (_ ∧ _))

theorem isWrapped_iff (hcount : 0 < count) :
    IsWrapped count start w ↔ w = count - 1 + (start + 1) % count := by
  have hnonneg : 0 ≤ (start + 1) % count := Int.emod_nonneg _ (Int.ne_of_gt hcount)
  have hlt : (start + 1) % count < count := Int.emod_lt_of_pos _ hcount
  constructor
  · rintro ⟨hmod, hlow, hhigh⟩
    have hoffset : (start + 1) % count = (w + 1 - count) % count := by
      rw [Int.sub_emod_right]
      exact (hmod.add_right 1).symm
    rw [hoffset, Int.emod_eq_of_lt (by omega) (by omega)]
    omega
  · rintro rfl
    refine ⟨?_, by omega, by omega⟩
    calc count - 1 + (start + 1) % count
        ≡ count - 1 + (start + 1) [ZMOD count] := (Int.mod_modEq _ _).add_left _
      _ = start + count := by omega
      _ ≡ start [ZMOD count] := Int.add_modEq_right

/-- **A start stands for exactly one place.** -/
theorem existsUnique_isWrapped (hcount : 0 < count) (start : Int) :
    ∃! w, IsWrapped count start w :=
  ⟨_, (isWrapped_iff hcount).2 rfl, fun _ hw => (isWrapped_iff hcount).1 hw⟩

/-- A negative start is not below the number of the page that it lies in. -/
theorem page_bounds (hcount : 0 < count) (hstart : start < 0) :
    start + 1 ≤ (start + 1) / count ∧ (start + 1) / count ≤ 0 := by
  constructor
  · have hmul : (start + 1) * count ≤ (start + 1) * 1 :=
      Int.mul_le_mul_of_nonpos_left (by omega) hcount
    exact (Int.le_ediv_iff_mul_le hcount).2 (by omega)
  · have hlt : (start + 1) / count < 1 := (Int.ediv_lt_iff_lt_mul hcount).2 (by omega)
    omega

/-- The place before a negative start, and the page that it lies in, are 64-bit integers. -/
theorem fits_page (hcount : 0 < count) (hfits : Fits start) (hstart : start < 0) :
    Fits (start + 1) ∧ Fits ((start + 1) / count) := by
  obtain ⟨hlow, hhigh⟩ := page_bounds hcount hstart
  unfold Fits leastInteger greatestInteger at *
  omega

/-- The places of the pages that are passed are the way from the start to its place. -/
theorem shift_eq (hcount : 0 < count) (hw : IsWrapped count start w) :
    (1 - (start + 1) / count) * count = w - start := by
  have hplace : w = count - 1 + (start + 1) % count := (isWrapped_iff hcount).1 hw
  have hdiv : count * ((start + 1) / count) + (start + 1) % count = start + 1 :=
    Int.mul_ediv_add_emod (start + 1) count
  rw [Int.sub_mul, Int.one_mul, Int.mul_comm ((start + 1) / count)]
  omega

/-- **The place is found if and only if the way to it fits into 64 bits.** -/
theorem wrapped_eq (hcount : 0 < count) (hstart : start < 0) (hw : IsWrapped count start w) :
    wrapped count start = if w - start ≤ greatestInteger then some w else none := by
  have hshift := shift_eq hcount hw
  have hlow : count - 1 ≤ w := hw.2.1
  have hpage : 0 ≤ 1 - (start + 1) / count := by
    have hhigh := (page_bounds hcount hstart).2
    omega
  rw [wrapped]
  generalize 1 - (start + 1) / count = pages at hshift hpage ⊢
  have hpages : pages * 1 ≤ pages * count := Int.mul_le_mul_of_nonneg_left hcount hpage
  rw [hshift, Int.mul_one] at hpages
  split
  · rename_i hle
    have hchecked (n : Int) (hn : 0 ≤ n) (hn' : n ≤ greatestInteger) : checked n = some n :=
      checked_eq_some.2 ⟨rfl, Int.le_trans (by decide) hn, hn'⟩
    rw [hchecked pages (by omega) (by omega), Option.bind_some, hshift,
      hchecked (w - start) (by omega) hle, Option.bind_some, Int.sub_add_cancel,
      hchecked w (by omega) (by omega)]
  · rename_i hlt
    -- If the number of pages fits, then their places do not.
    cases hn : checked pages with
    | none => rfl
    | some n =>
      obtain ⟨rfl, -⟩ := checked_eq_some.1 hn
      have hnone : checked (w - start) = none := if_neg fun hfit => hlt hfit.2
      rw [Option.bind_some, hshift, hnone, Option.bind_none]

end Wrapped

/-! ### Reading the form -/

section Form

variable {form : Form} {default : Int}

theorem positive?_eq_some {n m : Int} : positive? n = some m ↔ n = m ∧ 0 < n := by
  unfold positive?
  split
  · rename_i h
    simp [h]
  · rename_i h
    simp [h]

/-- The count that is used is positive, and a 64-bit integer. -/
theorem countOf_spec (form : Form) (hdefault : 0 < default) (hfits : Fits default) :
    0 < countOf form default ∧ Fits (countOf form default) := by
  unfold countOf
  cases hn : ((form.get? "count").bind trimmedInteger?).bind positive? with
  | none => exact ⟨hdefault, hfits⟩
  | some n =>
    obtain ⟨m, hm, hpositive⟩ := Option.bind_eq_some_iff.1 hn
    obtain ⟨rfl, hpos⟩ := positive?_eq_some.1 hpositive
    obtain ⟨text, -, hread⟩ := Option.bind_eq_some_iff.1 hm
    exact ⟨hpos, fits_of_readInteger? hread⟩

/-- What is written for an integer is read back, with or without blanks around it. -/
theorem integer?_decimalText {n : Int} (h : Fits n) :
    integer? (decimalText n) = some n ∧ trimmedInteger? (decimalText n) = some n := by
  have hread : readInteger? (decimal n) = some n :=
    (numeral_decimal n).readInteger?_eq.trans (checked_eq_some.2 ⟨rfl, h⟩)
  have htrim : Text.trim (decimal n) = decimal n :=
    Text.trim_of_not_blank (numeral_decimal n).not_blank
  rw [integer?, trimmedInteger?, decimalText, String.toList_ofList, htrim]
  exact ⟨hread, hread⟩

/-- The count of the form is written as a numeral, and can be used. -/
structure HasCount (form : Form) (n : Int) : Prop where
  pos : 0 < n
  fits : Fits n
  get?_eq : form.get? "count" = some (decimalText n)

theorem hasCount_count (hdefault : 0 < default) (hfits : Fits default) :
    HasCount (count form default).2 (count form default).1 := by
  obtain ⟨hpos, hfits⟩ := countOf_spec form hdefault hfits
  exact ⟨hpos, hfits, Form.get?_set_self form "count" _⟩

variable {n : Int}

/-- **Where the count is written, it is used and nothing changes**, whatever the default is. -/
theorem HasCount.count_eq (h : HasCount form n) (default : Int) :
    count form default = (n, form) := by
  have hcount : countOf form default = n := by
    rw [countOf, h.get?_eq, Option.bind_some, (integer?_decimalText h.fits).2, Option.bind_some,
      positive?_eq_some.2 ⟨rfl, h.pos⟩, Option.getD_some]
  rw [count, hcount]
  exact congrArg (Prod.mk n) (Form.set_of_get?_eq_some h.get?_eq)

/-- The integer that was typed for the start. -/
def typedStart (form : Form) : Option Int := (form.get? "start").bind trimmedInteger?

/-- With a count, a start that was typed is used as it is or moved by pages. -/
theorem HasCount.start_eq (h : HasCount form n) (default : Int) :
    start form default =
      match typedStart form with
      | none => default
      | some m => if m < 0 then (wrapped n m).getD default else m := by
  rw [start, h.get?_eq, Option.bind_some, (integer?_decimalText h.fits).1, Option.bind_some,
    positive?_eq_some.2 ⟨rfl, h.pos⟩, ← typedStart]
  cases typedStart form <;> rfl

theorem fits_of_typedStart {m : Int} (h : typedStart form = some m) : Fits m := by
  obtain ⟨text, -, hread⟩ := Option.bind_eq_some_iff.1 h
  exact fits_of_readInteger? hread

/-- Writing the count leaves the start that was typed. -/
theorem typedStart_count (form : Form) (default : Int) :
    typedStart (count form default).2 = typedStart form := by
  rw [typedStart, typedStart, count, Form.get?_set, if_neg (by decide)]

/-- **Paging.** The count is positive and stands in the form as a numeral afterwards; asking again
gives the same count and the same form. On that form, the start is the default if no 64-bit integer
was typed, and what was typed if that is not negative. A negative start stands for exactly one
place, and that is the start if the way to it fits into 64 bits; otherwise the start is the default.
What is computed without a check, the place before the start and its page, always fits. -/
theorem count_and_start (form : Form) {standard : Int} (default : Int) (hstandard : 0 < standard)
    (hfits : Fits standard) :
    let n := (count form standard).1
    let form' := (count form standard).2
    (0 < n ∧ form'.get? "count" = some (decimalText n) ∧
      ∀ other, count form' other = (n, form')) ∧
    (typedStart form = none → start form' default = default) ∧
    (∀ m, typedStart form = some m → 0 ≤ m → start form' default = m) ∧
    ∀ m, typedStart form = some m → m < 0 →
      (∃! w, IsWrapped n m w) ∧
      (∀ w, IsWrapped n m w →
        start form' default = if w - m ≤ greatestInteger then w else default) ∧
      n ≠ 0 ∧ checked (m + 1) = some (m + 1) ∧ checked ((m + 1) / n) = some ((m + 1) / n) := by
  intro n form'
  have h : HasCount form' n := hasCount_count hstandard hfits
  have hstart := h.start_eq default
  rw [typedStart_count] at hstart
  refine ⟨⟨h.pos, h.get?_eq, h.count_eq⟩, fun hnone => ?_, fun m hm hnonneg => ?_,
    fun m hm hneg => ?_⟩
  · rw [hstart, hnone]
  · rw [hstart, hm]
    exact if_neg (Int.not_lt.2 hnonneg)
  · obtain ⟨hbefore, hpage⟩ := fits_page h.pos (fits_of_typedStart hm) hneg
    refine ⟨existsUnique_isWrapped h.pos m, fun w hw => ?_, Int.ne_of_gt h.pos,
      checked_eq_some.2 ⟨rfl, hbefore⟩, checked_eq_some.2 ⟨rfl, hpage⟩⟩
    rw [hstart, hm]
    simp only [if_pos hneg, wrapped_eq h.pos hneg hw]
    split <;> rfl

/-- With 20 places to a page, the start 51 places before the first one stands for the place 29, and
the least start that can be typed with two places to a page is too far away. -/
theorem count_and_start_negative :
    let form := Form.ofList [("start", "-51"), ("count", "20")]
    let far := Form.ofList [("start", " -9223372036854775808"), ("count", "2")]
    (0 < standardCount ∧ Fits standardCount) ∧
      (typedStart form = some (-51) ∧ IsWrapped 20 (-51) 29 ∧
        start (count form standardCount).2 0 = 29) ∧
      typedStart far = some (-9223372036854775808) ∧
        IsWrapped 2 (-9223372036854775808) 2 ∧
        start (count far standardCount).2 7 = 7 := by
  intro form far
  have hpos : 0 < standardCount := by decide
  have hfits : Fits standardCount := by decide
  have hstart : typedStart form = some (-51) := by decide
  have hfar : typedStart far = some (-9223372036854775808) := by decide
  have hplace : IsWrapped 20 (-51) 29 := by decide
  have hfarPlace : IsWrapped 2 (-9223372036854775808) 2 := by decide
  obtain ⟨-, hnear, -⟩ := (count_and_start form 0 hpos hfits).2.2.2 _ hstart (by decide)
  obtain ⟨-, haway, -⟩ := (count_and_start far 7 hpos hfits).2.2.2 _ hfar (by decide)
  exact ⟨⟨hpos, hfits⟩, ⟨hstart, hplace, hnear _ hplace⟩, hfar, hfarPlace, haway _ hfarPlace⟩

end Form

end SearchBox.Paging
