import Mathlib.Data.List.Induction
import Mathlib.Data.Set.Function
import SearchBox.Proofs.Occurrence

/-!
# Codes are numerals

The code of an occurrence is written like a number on paper, with the letters from `A` to `Z` as the
digits from 0 to 25. A text of letters `IsCanonical` if it does not begin with a zero that could be
left out. These texts are exactly the codes, and each is the code of the number that it stands for
(`code_bijOn`). There is no bound on the number of letters.
-/

namespace SearchBox.Occurrence

variable {c : Char} {cs : List Char}

/-! ### Letters -/

/-- The character is a letter from `A` to `Z`. -/
def IsLetter (c : Char) : Prop := 'A' ≤ c ∧ c ≤ 'Z'

theorem isLetter_iff : IsLetter c ↔ 65 ≤ c.toNat ∧ c.toNat ≤ 90 := Iff.rfl

theorem isLetter_letter {d : Nat} (h : d < 26) : IsLetter (letter d) := by
  have hall : ∀ d < 26, 65 ≤ (letter d).toNat ∧ (letter d).toNat ≤ 90 := by decide
  exact isLetter_iff.2 (hall d h)

theorem IsLetter.digit_lt (h : IsLetter c) : digit c < 26 := by
  have hrange := isLetter_iff.1 h
  unfold digit
  omega

theorem IsLetter.letter_digit (h : IsLetter c) : letter (digit c) = c := by
  have hcode : 65 + (c.toNat - 65) = c.toNat := Nat.add_sub_cancel' (isLetter_iff.1 h).1
  rw [letter, digit, hcode, Char.ofNat_toNat]

/-! ### Canonical numerals -/

/-- A text of letters, at least one, that begins with a zero only if it is the zero alone. -/
structure IsCanonical (cs : List Char) : Prop where
  ne_nil : cs ≠ []
  isLetter : ∀ c ∈ cs, IsLetter c
  eq_of_head? : cs.head? = some 'A' → cs = ['A']

theorem IsCanonical.append_letter (h : IsCanonical cs) (hzero : cs ≠ ['A']) (hc : IsLetter c) :
    IsCanonical (cs ++ [c]) where
  ne_nil := by simp
  isLetter := by
    intro x hx
    rcases List.mem_append.1 hx with hx | hx
    · exact h.isLetter x hx
    · exact List.mem_singleton.1 hx ▸ hc
  eq_of_head? := by
    intro hhead
    rw [List.head?_append_of_ne_nil cs h.ne_nil] at hhead
    exact absurd (h.eq_of_head? hhead) hzero

/-- What stands before the last letter of a longer numeral is a numeral, and not the zero. -/
theorem IsCanonical.of_append_letter (h : IsCanonical (cs ++ [c])) (hne : cs ≠ []) :
    IsCanonical cs ∧ cs ≠ ['A'] := by
  have hhead : cs.head? ≠ some 'A' := by
    intro hA
    have hwhole : (cs ++ [c]).head? = some 'A' := (List.head?_append_of_ne_nil cs hne).trans hA
    have hlen := congrArg List.length (h.eq_of_head? hwhole)
    rw [List.length_append, List.length_singleton, List.length_singleton] at hlen
    exact hne (List.length_eq_zero_iff.1 (by omega))
  refine ⟨⟨hne, fun x hx => h.isLetter x (List.mem_append_left _ hx), ?_⟩, ?_⟩
  · exact fun hA => absurd hA hhead
  · rintro rfl
    exact hhead rfl

theorem code_eq_zero_iff {n : Nat} : code n = ['A'] ↔ n = 0 := by
  have hzero : code 0 = ['A'] := code_of_lt (by decide)
  rw [← hzero, code_injective.eq_iff]

theorem isCanonical_code (n : Nat) : IsCanonical (code n) := by
  induction n using Nat.strongRecOn with
  | ind n ih =>
    by_cases h : n < 26
    · rw [code_of_lt h]
      refine ⟨by simp, by simpa using isLetter_letter h, fun hhead => ?_⟩
      exact congrArg (fun c => [c]) (Option.some.inj hhead)
    · rw [code_of_le (Nat.not_lt.1 h)]
      refine (ih (n / 26) (by omega)).append_letter ?_ (isLetter_letter (Nat.mod_lt n (by decide)))
      rw [ne_eq, code_eq_zero_iff]
      omega

/-- **A canonical numeral is the code of its number.** The induction takes the last letter away;
what stands before it is not the zero, so the number has as many digits as there are letters. -/
theorem IsCanonical.code_value (h : IsCanonical cs) : code (value cs) = cs := by
  induction cs using List.reverseRecOn with
  | nil => exact absurd rfl h.ne_nil
  | append_singleton front c ih =>
    have hc : IsLetter c := h.isLetter c (by simp)
    have hvalue : value (front ++ [c]) = 26 * value front + digit c := by
      rw [← hc.letter_digit, value_append_letter front hc.digit_lt, hc.letter_digit]
    have hlt := hc.digit_lt
    rcases eq_or_ne front [] with rfl | hne
    · have hzero : value [] = 0 := rfl
      rw [hvalue, hzero, code_of_lt (by omega), Nat.mul_zero, Nat.zero_add, hc.letter_digit,
        List.nil_append]
    · obtain ⟨hfront, hnonzero⟩ := h.of_append_letter hne
      have hcode : code (value front) = front := ih hfront
      have hpos : value front ≠ 0 := by
        rwa [← hcode, ne_eq, code_eq_zero_iff] at hnonzero
      have hdiv : (26 * value front + digit c) / 26 = value front := by omega
      have hmod : (26 * value front + digit c) % 26 = digit c := by omega
      rw [hvalue, code_of_le (by omega), hdiv, hmod, hcode, hc.letter_digit]

/-- **Codes and canonical numerals are the same.** Every number has a code of its own, which is a
canonical numeral, every canonical numeral is a code, and the number that letters stand for undoes
and is undone by the code. -/
theorem code_bijOn :
    Set.BijOn code Set.univ {cs | IsCanonical cs} ∧
      Set.InvOn value code Set.univ {cs | IsCanonical cs} := by
  have hinv : Set.InvOn value code Set.univ {cs | IsCanonical cs} :=
    ⟨fun n _ => value_code n, fun _ hcs => hcs.code_value⟩
  exact ⟨hinv.bijOn (fun n _ => isCanonical_code n) (fun _ _ => Set.mem_univ _), hinv⟩

end SearchBox.Occurrence
