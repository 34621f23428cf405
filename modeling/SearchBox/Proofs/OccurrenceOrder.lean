import SearchBox.Proofs.Occurrence

/-!
# The order of occurrences

Texts are compared letter by letter, and a number with more letters than another may begin with a
smaller one: `BA` stands for 26 and comes before `C`. So codes are in the order of their numbers as
long as they have equally many letters (`code_lt_iff_of_length`), and in general if and only if the
front letters of the longer code do not stand for a smaller number (`code_lt_iff`). The occurrences
of a label keep their order as long as there are no more of them than there are letters
(`pairwise_textsOf_iff`).
-/

namespace SearchBox.Occurrence

/-! ### Codes as texts -/

/-- Texts whose front parts are equally long are compared by these first. -/
theorem append_lt_append_iff {xs ys : List Char} (h : xs.length = ys.length) (s t : List Char) :
    xs ++ s < ys ++ t ↔ xs < ys ∨ xs = ys ∧ s < t := by
  induction xs generalizing ys with
  | nil =>
    obtain rfl := List.length_eq_zero_iff.1 h.symm
    simp
  | cons x xs ih =>
    cases ys with
    | nil => cases h
    | cons y ys =>
      rw [List.cons_append, List.cons_append, List.cons_lt_cons_iff, List.cons_lt_cons_iff,
        ih (Nat.succ.inj h), List.cons.injEq, and_or_left, or_assoc, and_assoc]

theorem letter_lt_iff {a b : Nat} (ha : a < 26) (hb : b < 26) : letter a < letter b ↔ a < b := by
  have hall : ∀ a < 26, ∀ b < 26, (letter a < letter b ↔ a < b) := by decide
  exact hall a ha b hb

theorem length_code_of_lt {n : Nat} (h : n < 26) : (code n).length = 1 := by
  rw [code_of_lt h, List.length_singleton]

theorem length_code_of_le {n : Nat} (h : 26 ≤ n) :
    (code n).length = (code (n / 26)).length + 1 := by
  rw [code_of_le h, List.length_append, List.length_singleton]

theorem length_code_pos (n : Nat) : 0 < (code n).length :=
  List.length_pos_iff.2 (code_ne_nil n)

theorem length_code_eq_one_iff {n : Nat} : (code n).length = 1 ↔ n < 26 := by
  refine ⟨fun h => ?_, length_code_of_lt⟩
  by_contra hn
  rw [length_code_of_le (Nat.not_lt.1 hn)] at h
  have hpos := length_code_pos (n / 26)
  omega

/-- A greater number has no fewer letters. -/
theorem length_code_mono {m n : Nat} (h : m ≤ n) : (code m).length ≤ (code n).length := by
  induction n using Nat.strongRecOn generalizing m with
  | ind n ih =>
    by_cases hm : m < 26
    · rw [length_code_of_lt hm]
      exact length_code_pos n
    · have hfront : (code (m / 26)).length ≤ (code (n / 26)).length :=
        ih (n / 26) (by omega) (by omega)
      rw [length_code_of_le (Nat.not_lt.1 hm), length_code_of_le (n := n) (by omega)]
      omega

/-- **Codes with equally many letters are in the order of their numbers.** -/
theorem code_lt_iff_of_length {m n : Nat} (h : (code m).length = (code n).length) :
    code m < code n ↔ m < n := by
  induction n using Nat.strongRecOn generalizing m with
  | ind n ih =>
    by_cases hm : m < 26
    · have hn : n < 26 := length_code_eq_one_iff.1 (h ▸ length_code_of_lt hm)
      rw [code_of_lt hm, code_of_lt hn, List.cons_lt_cons_iff, letter_lt_iff hm hn]
      simp
    · have hn : ¬ n < 26 := fun hn => hm (length_code_eq_one_iff.1 (h.trans (length_code_of_lt hn)))
      have hfront : (code (m / 26)).length = (code (n / 26)).length := by
        rw [length_code_of_le (Nat.not_lt.1 hm), length_code_of_le (Nat.not_lt.1 hn)] at h
        omega
      have hdigit (k : Nat) : k % 26 < 26 := Nat.mod_lt k (by decide)
      -- The front letters decide, and the last one only if those are the same.
      rw [code_of_le (Nat.not_lt.1 hm), code_of_le (Nat.not_lt.1 hn), append_lt_append_iff hfront,
        ih (n / 26) (by omega) hfront, code_injective.eq_iff, List.cons_lt_cons_iff,
        letter_lt_iff (hdigit m) (hdigit n)]
      simp only [List.not_lt_nil, and_false, or_false]
      omega

/-- Letters at the front of a code are themselves the code of a number. -/
theorem code_value_take {k : Nat} (n : Nat) (h : 0 < k) :
    code (value ((code n).take k)) = (code n).take k := by
  by_cases hback : (code n).drop k = []
  · rw [List.take_of_length_le (List.drop_eq_nil_iff.1 hback), value_code]
  · have hfront : (code n).take k ≠ [] := by
      rw [ne_eq, List.take_eq_nil_iff, not_or]
      exact ⟨by omega, code_ne_nil n⟩
    obtain ⟨v, -, -, hv⟩ :=
      exists_of_code_eq_append (List.take_append_drop k (code n)).symm hfront hback
    rw [hv, value_code]

/-- **The code of the smaller number comes first unless the greater one begins with less:** with as
many letters of its code as the other code has. -/
theorem code_lt_iff {m n : Nat} (h : m < n) :
    code m < code n ↔ m ≤ value ((code n).take (code m).length) := by
  have hfront : code (value ((code n).take (code m).length)) = (code n).take (code m).length :=
    code_value_take n (length_code_pos m)
  have hlength : (code m).length = ((code n).take (code m).length).length := by
    rw [List.length_take, Nat.min_eq_left (length_code_mono (Nat.le_of_lt h))]
  generalize hback : (code n).drop (code m).length = back
  generalize hv : value ((code n).take (code m).length) = v at hfront ⊢
  have hcode : code n = code v ++ back := by
    rw [hfront, ← hback, List.take_append_drop]
  rw [← hfront] at hlength
  have hsplit := append_lt_append_iff hlength [] back
  rw [List.append_nil, ← hcode, code_lt_iff_of_length hlength, code_injective.eq_iff] at hsplit
  rw [hsplit]
  constructor
  · rintro (hlt | ⟨rfl, -⟩)
    · exact Nat.le_of_lt hlt
    · exact Nat.le_refl m
  · intro hle
    rcases Nat.lt_or_eq_of_le hle with hlt | rfl
    · exact .inl hlt
    · refine .inr ⟨rfl, ?_⟩
      cases back with
      | nil =>
        rw [List.append_nil] at hcode
        exact absurd (code_injective hcode) (Nat.ne_of_gt h)
      | cons c back => exact List.nil_lt_cons c back

/-! ### Occurrences of one label -/

/-- The texts of the occurrences of a label, in the order in which they were typed. -/
def textsOf (label : String) (labels : List String) : List String :=
  ((labels.zip (encode labels)).filter fun o => o.1 = label).map Prod.snd

theorem tag_lt_tag_iff {label : String} {m n : Nat} :
    tag label m < tag label n ↔ code m < code n := by
  have h := append_lt_append_iff (Eq.refl label.toList.length) (code m) (code n)
  rw [String.lt_iff, tag, tag, String.toList_append, String.toList_append, String.toList_ofList,
    String.toList_ofList, h]
  constructor
  · intro hlt
    exact (hlt.resolve_left (List.lt_irrefl label.toList)).2
  · intro hlt
    exact .inr ⟨rfl, hlt⟩

/-- Each occurrence of a label has the next number, whatever stands between them. -/
theorem textsOf_encodeAfter (label : String) (seen labels : List String) :
    ((labels.zip (encodeAfter seen labels)).filter fun o => o.1 = label).map Prod.snd =
      (List.range' (seen.count label) (labels.count label)).map (tag label) := by
  induction labels generalizing seen with
  | nil => rfl
  | cons l ls ih =>
    rw [encodeAfter, List.zip_cons_cons]
    by_cases h : l = label
    · subst h
      have hrest := ih (l :: seen)
      rw [List.count_cons_self] at hrest
      rw [List.filter_cons_of_pos (by simp), List.map_cons, hrest, List.count_cons_self,
        List.range'_succ, List.map_cons]
    · have hrest := ih (l :: seen)
      rw [List.count_cons_of_ne h] at hrest
      rw [List.filter_cons_of_neg (by simpa using h), hrest, List.count_cons_of_ne h]

theorem textsOf_eq (label : String) (labels : List String) :
    textsOf label labels = (List.range (labels.count label)).map (tag label) := by
  rw [List.range_eq_range']
  exact textsOf_encodeAfter label [] labels

/-- **The occurrences of a label keep their order if and only if there are at most 26 of them.** -/
theorem pairwise_textsOf_iff {label : String} {labels : List String} :
    (textsOf label labels).Pairwise (· < ·) ↔ labels.count label ≤ 26 := by
  rw [textsOf_eq, List.pairwise_map, List.pairwise_iff_getElem]
  simp only [List.length_range, List.getElem_range, tag_lt_tag_iff]
  constructor
  · intro h
    by_contra hlt
    -- The third occurrence comes after the 27th.
    have hwrong := (code_lt_iff (by decide)).1 (h 2 26 (by omega) (by omega) (by decide))
    rw [length_code_of_lt (by decide), code_of_le (by decide), code_of_lt (by decide)] at hwrong
    exact absurd hwrong (by decide)
  · intro hle i j hi hj hij
    have hone (k : Nat) (hk : k < labels.count label) : (code k).length = 1 :=
      length_code_of_lt (Nat.lt_of_lt_of_le hk hle)
    exact (code_lt_iff_of_length ((hone i hi).trans (hone j hj).symm)).2 hij

/-- **When occurrences are in order.** The code of the smaller of two numbers comes first exactly if
the front letters of the other code, as many as it has itself, do not stand for a smaller number. So
the texts of the occurrences of a label are in the order in which they were typed exactly if there
are at most 26 of them, one for each letter. -/
theorem encode_in_order_iff {m n : Nat} (h : m < n) (label : String) (labels : List String) :
    (String.ofList (code m) < String.ofList (code n) ↔
      m ≤ value ((code n).take (code m).length)) ∧
    ((textsOf label labels).Pairwise (· < ·) ↔ labels.count label ≤ 26) := by
  refine ⟨?_, pairwise_textsOf_iff⟩
  rw [String.lt_iff, String.toList_ofList, String.toList_ofList]
  exact code_lt_iff h

/-- The second code comes before the 27th, as `B` does before `BA`, and two occurrences of a label
are in order. -/
theorem encode_in_order_iff_second :
    1 < 26 ∧ String.ofList (code 1) < String.ofList (code 26) ∧
      (textsOf "x" ["x", "y", "x"]).Pairwise (· < ·) := by
  obtain ⟨hcode, htexts⟩ := @encode_in_order_iff 1 26 (by decide) "x" ["x", "y", "x"]
  refine ⟨by decide, hcode.2 ?_, htexts.2 (by decide)⟩
  rw [length_code_of_lt (by decide), code_of_le (by decide), code_of_lt (by decide)]
  decide

/-- The code of the 27th occurrence does not come behind the one before it, and 27 occurrences of a
label are out of order. -/
theorem not_encode_in_order :
    25 < 26 ∧ ¬ String.ofList (code 25) < String.ofList (code 26) ∧
      ¬ (textsOf "x" (List.replicate 27 "x")).Pairwise (· < ·) := by
  refine ⟨by decide, ?_, ?_⟩
  · rw [code_of_lt (by decide), code_of_le (by decide), code_of_lt (by decide)]
    decide
  · rw [pairwise_textsOf_iff]
    decide

end SearchBox.Occurrence
