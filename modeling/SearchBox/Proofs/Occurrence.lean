import Mathlib.Data.List.Nodup
import SearchBox.Occurrence
import SearchBox.Proofs.Canonical
import SearchBox.Proofs.SetCondition

/-!
# Which occurrences are told apart

A code stands behind its label with no mark between the two. So the front letters of a code may as
well belong to a longer label: `xBA` is the 27th `x`, and also the first `xB`. There is no other way
in which two occurrences come to one text (`exists_of_tag_eq`), and it takes 27 occurrences of the
shorter label. `encode_nodup_iff` says exactly which lists of labels are affected.
-/

namespace SearchBox.Occurrence

/-! ### Codes are numerals -/

/-- The digit of a letter. -/
def digit (c : Char) : Nat := c.toNat - 65

/-- The number that letters stand for, the highest digit first. -/
def value (cs : List Char) : Nat := cs.foldl (fun n c => 26 * n + digit c) 0

theorem digit_letter {d : Nat} (h : d < 26) : digit (letter d) = d := by
  have hall : ∀ d < 26, digit (letter d) = d := by decide
  exact hall d h

theorem value_append_letter (cs : List Char) {d : Nat} (h : d < 26) :
    value (cs ++ [letter d]) = 26 * value cs + d := by
  rw [value, List.foldl_append, List.foldl_cons, List.foldl_nil, digit_letter h]
  rfl

/-- A code is the numeral of its number. -/
theorem value_code (n : Nat) : value (code n) = n := by
  induction n using Nat.strongRecOn with
  | ind n ih =>
    by_cases h : n < 26
    · rw [code_of_lt h]
      exact (value_append_letter [] h).trans (Nat.zero_add n)
    · rw [code_of_le (Nat.not_lt.1 h), value_append_letter _ (Nat.mod_lt n (by decide)),
        ih (n / 26) (by omega)]
      omega

theorem code_injective : Function.Injective code :=
  Function.LeftInverse.injective value_code

/-- The code of a multiple of 26 ends with the code of the first occurrence. -/
theorem code_mul {v : Nat} (h : 1 ≤ v) : code (26 * v) = code v ++ code 0 := by
  rw [code_of_le (by omega), Nat.mul_div_cancel_left v (by decide), Nat.mul_mod_right,
    code_of_lt (n := 0) (by decide)]

/-- The front letters of a code are a code themselves, of a number that is 26 times smaller. -/
theorem exists_of_code_eq_append {m : Nat} {front back : List Char} (h : code m = front ++ back)
    (hfront : front ≠ []) (hback : back ≠ []) :
    ∃ v, 1 ≤ v ∧ 26 * v ≤ m ∧ front = code v := by
  induction m using Nat.strongRecOn generalizing back with
  | ind m ih =>
    have hm : 26 ≤ m := by
      by_contra hlt
      -- One letter cannot be split in two.
      have hlen := congrArg List.length h
      rw [code_of_lt (Nat.not_le.1 hlt), List.length_append, List.length_singleton] at hlen
      have hfront' := List.length_pos_iff.2 hfront
      have hback' := List.length_pos_iff.2 hback
      omega
    obtain ⟨back', c, rfl⟩ := (List.eq_nil_or_concat back).resolve_left hback
    rw [code_of_le hm, List.concat_eq_append, ← List.append_assoc] at h
    have hinit : code (m / 26) = front ++ back' := (List.append_inj' h rfl).1
    by_cases hnil : back' = []
    · rw [hnil, List.append_nil] at hinit
      exact ⟨m / 26, by omega, by omega, hinit.symm⟩
    · obtain ⟨v, hv, hle, heq⟩ := ih (m / 26) (by omega) hinit hnil
      exact ⟨v, hv, by omega, heq⟩

/-! ### Tags -/

/-- The label with the letters of a code at its end, as part of the label. -/
def extended (label : String) (v : Nat) : String := label ++ String.ofList (code v)

theorem tag_eq_iff {label label' : String} {m n : Nat} :
    tag label m = tag label' n ↔ label.toList ++ code m = label'.toList ++ code n := by
  rw [tag, tag, String.ext_iff]
  simp

theorem tag_injective (label : String) : Function.Injective (tag label) := fun _ _ h =>
  code_injective (List.append_cancel_left (tag_eq_iff.1 h))

/-- The first occurrence of an extended label looks like a later one of the label. -/
theorem tag_extended (label : String) {v : Nat} (h : 1 ≤ v) :
    tag (extended label v) 0 = tag label (26 * v) := by
  rw [tag_eq_iff, code_mul h, extended]
  simp

/-- If a label and a longer one get the same text, then the longer one is an extension of the other,
which has occurred too often. -/
theorem exists_of_append_code_eq {label longer front : List Char} {m n : Nat}
    (hlonger : longer = label ++ front) (h : label ++ code m = longer ++ code n)
    (hne : label ≠ longer) : ∃ v, 1 ≤ v ∧ 26 * v ≤ m ∧ longer = label ++ code v := by
  have hfront : front ≠ [] := by
    rintro rfl
    exact hne (by simpa using hlonger.symm)
  rw [hlonger, List.append_assoc] at h
  obtain ⟨v, hv, hle, rfl⟩ :=
    exists_of_code_eq_append (List.append_cancel_left h) hfront (code_ne_nil n)
  exact ⟨v, hv, hle, hlonger⟩

/-- **Two occurrences come to one text only if one label extends the other.** -/
theorem exists_of_tag_eq {label label' : String} {m n : Nat} (h : tag label m = tag label' n)
    (hne : label ≠ label') :
    (∃ v, 1 ≤ v ∧ 26 * v ≤ m ∧ label' = extended label v) ∨
      ∃ v, 1 ≤ v ∧ 26 * v ≤ n ∧ label = extended label' v := by
  have hlists := tag_eq_iff.1 h
  have hne' : label.toList ≠ label'.toList := fun heq => hne (String.ext_iff.2 heq)
  have hextended {label label' : String} {v : Nat} (h : label'.toList = label.toList ++ code v) :
      label' = extended label v := by
    rw [String.ext_iff, extended]
    simpa using h
  rcases List.append_eq_append_iff.1 hlists with ⟨front, hfront, -⟩ | ⟨front, hfront, -⟩
  · obtain ⟨v, hv, hle, heq⟩ := exists_of_append_code_eq hfront hlists hne'
    exact .inl ⟨v, hv, hle, hextended heq⟩
  · obtain ⟨v, hv, hle, heq⟩ := exists_of_append_code_eq hfront hlists.symm hne'.symm
    exact .inr ⟨v, hv, hle, hextended heq⟩

/-! ### Occurrences -/

/-- Each label with the number of its occurrences before, those of `seen` included. -/
def numberedAfter (seen : List String) : List String → List (String × Nat)
  | [] => []
  | l :: ls => (l, seen.count l) :: numberedAfter (l :: seen) ls

theorem encodeAfter_eq_map (seen labels : List String) :
    encodeAfter seen labels = (numberedAfter seen labels).map fun o => tag o.1 o.2 := by
  induction labels generalizing seen with
  | nil => rfl
  | cons l ls ih => rw [encodeAfter, numberedAfter, List.map_cons, ih]

/-- The occurrences of a label are numbered from the number of those seen. -/
theorem mem_numberedAfter {seen labels : List String} {label : String} {n : Nat} :
    (label, n) ∈ numberedAfter seen labels ↔
      seen.count label ≤ n ∧ n < seen.count label + labels.count label := by
  induction labels generalizing seen with
  | nil => simp [numberedAfter]
  | cons l ls ih =>
    rw [numberedAfter, List.mem_cons, Prod.mk.injEq, ih, List.count_cons, List.count_cons]
    by_cases h : l = label
    · subst h
      simp only [true_and, beq_self_eq_true, if_true]
      omega
    · have hbeq : (l == label) = false := by simpa using h
      simp only [Ne.symm h, false_and, false_or, hbeq, Bool.false_eq_true, if_false, Nat.add_zero]

theorem nodup_numberedAfter (seen labels : List String) : (numberedAfter seen labels).Nodup := by
  induction labels generalizing seen with
  | nil => exact .nil
  | cons l ls ih =>
    refine List.nodup_cons.2 ⟨fun hmem => ?_, ih (l :: seen)⟩
    -- Later occurrences of the label have this one before them.
    have hle := (mem_numberedAfter.1 hmem).1
    rw [List.count_cons_self] at hle
    omega

theorem mem_numbered {labels : List String} {label : String} {n : Nat} :
    (label, n) ∈ numberedAfter [] labels ↔ n < labels.count label := by
  rw [mem_numberedAfter, List.count_nil]
  omega

/-- A label whose extension by the code of `v` is a label of the list as well occurs at most `26 * v`
times, so that none of its occurrences gets the text of the extension. -/
def IsUnambiguous (labels : List String) : Prop :=
  ∀ label v, 1 ≤ v → extended label v ∈ labels → labels.count label ≤ 26 * v

/-- **The texts are pairwise distinct exactly if the labels are unambiguous.** -/
theorem encode_nodup_iff {labels : List String} :
    (encode labels).Nodup ↔ IsUnambiguous labels := by
  rw [encode, encodeAfter_eq_map, List.nodup_map_iff_inj_on (nodup_numberedAfter [] labels)]
  constructor
  · intro hinj label v hv hmem
    by_contra hlt
    -- The first occurrence of the extension and this one of the label have the same text.
    have hfirst : (extended label v, 0) ∈ numberedAfter [] labels :=
      mem_numbered.2 (List.count_pos_iff.2 hmem)
    have hlater : (label, 26 * v) ∈ numberedAfter [] labels := mem_numbered.2 (by omega)
    have hsame := congrArg Prod.snd (hinj _ hfirst _ hlater (tag_extended label hv))
    simp only at hsame
    omega
  · rintro hlabels ⟨label, m⟩ hm ⟨label', n⟩ hn h
    have hm' := mem_numbered.1 hm
    have hn' := mem_numbered.1 hn
    by_cases hne : label = label'
    · subst hne
      exact congrArg (Prod.mk label) (tag_injective label h)
    · exfalso
      rcases exists_of_tag_eq h hne with ⟨v, hv, hle, rfl⟩ | ⟨v, hv, hle, rfl⟩
      · have hcount := hlabels label v hv (List.count_pos_iff.1 (Nat.zero_lt_of_lt hn'))
        omega
      · have hcount := hlabels label' v hv (List.count_pos_iff.1 (Nat.zero_lt_of_lt hm'))
        omega

/-- **Occurrences are kept apart exactly if the labels are unambiguous:** then their texts are
pairwise distinct, and an equal array has as many items as there are labels. -/
theorem encode_keeps_apart_iff (labels : List String) :
    ((encode labels).Nodup ↔ IsUnambiguous labels) ∧
    ∀ (field : String) (q : Query), field ∉ q.fields.keys →
      ∃ items, SetCondition.apply .exactly none (encode labels) field q =
          (q.insert field (.value (.list items)), .ok ()) ∧
        (items.length = labels.length ↔ IsUnambiguous labels) := by
  refine ⟨encode_nodup_iff, fun field q hfield => ?_⟩
  refine ⟨_, SetCondition.setValue_of_not_mem (encode labels) hfield, ?_⟩
  have hlen : labels.length = (encode labels).length := (length_encodeAfter [] labels).symm
  rw [SetCondition.scalars, List.length_map, hlen, SetCondition.length_canonical_eq_iff,
    encode_nodup_iff]

/-- Three labels, one of them twice and one an extension of it, in a query with another field. -/
theorem encode_keeps_apart_iff_extended :
    let q : Query := .single "n" (.value (.integer 1))
    "c" ∉ q.fields.keys ∧
    ∃ items, SetCondition.apply .exactly none (encode ["x", "xB", "x"]) "c" q =
        (q.insert "c" (.value (.list items)), .ok ()) ∧
      (items.length = ["x", "xB", "x"].length ↔ IsUnambiguous ["x", "xB", "x"]) := by
  intro q
  have hfree : "c" ∉ q.fields.keys := by decide
  exact ⟨hfree, (encode_keeps_apart_iff ["x", "xB", "x"]).2 "c" q hfree⟩

/-- With 27 times `x`, the last of them and one `xB` become one. -/
theorem not_encode_nodup :
    let labels := List.replicate 27 "x" ++ ["xB"]
    ¬ (encode labels).Nodup ∧
      (SetCondition.canonical (encode labels)).length < labels.length := by
  intro labels
  have hcode : extended "x" 1 = "xB" := by
    rw [extended, code_of_lt (by decide)]
    decide
  have hambiguous : ¬ IsUnambiguous labels := by
    intro h
    have hcount : labels.count "x" ≤ 26 * 1 := h "x" 1 (Nat.le_refl 1) (by rw [hcode]; decide)
    exact absurd hcount (by decide)
  have hnodup : ¬ (encode labels).Nodup := fun h => hambiguous (encode_nodup_iff.1 h)
  have hlen : (encode labels).length = labels.length := length_encodeAfter [] labels
  have hle : (SetCondition.canonical (encode labels)).length ≤ (encode labels).length := by
    have hsub := (SetCondition.eraseReps_sublist ((encode labels).mergeSort SetItem.le)).length_le
    rwa [List.length_mergeSort] at hsub
  refine ⟨hnodup, hlen ▸ Nat.lt_of_le_of_ne hle fun h => ?_⟩
  exact hnodup (SetCondition.length_canonical_eq_iff.1 h)

end SearchBox.Occurrence
