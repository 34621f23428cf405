import SearchBox.Text.Basic

/-!
# Texts that were put together

A text cut at a character comes apart where it was joined. Behind a part without the character the
text is cut (`cut_append_cons`), so pieces without it come back from the text that they make
(`pieces_joined`).
-/

namespace SearchBox.Text

variable {c : Char}

theorem cut_append_cons {a : List Char} (ha : c ∉ a) (b : List Char) :
    cut c (a ++ c :: b) = some (a, b) := by
  induction a with
  | nil => simp [cut]
  | cons x a ih =>
    rw [List.mem_cons, not_or] at ha
    rw [List.cons_append, cut, if_neg (Ne.symm ha.1), ih ha.2]
    rfl

/-- Two texts begin alike if they do so up to the first place of the character, and behind it. -/
theorem append_cons_prefix_iff {a b xs ys : List Char} (ha : c ∉ a) (hb : c ∉ b) :
    a ++ c :: xs <+: b ++ c :: ys ↔ a = b ∧ xs <+: ys := by
  constructor
  · rintro ⟨zs, hzs⟩
    have hcut : cut c (a ++ c :: (xs ++ zs)) = cut c (b ++ c :: ys) := by simp [← hzs]
    rw [cut_append_cons ha, cut_append_cons hb] at hcut
    cases hcut
    exact ⟨rfl, List.prefix_append xs zs⟩
  · rintro ⟨rfl, zs, rfl⟩
    exact ⟨zs, by simp⟩

/-- A text with the separating character in it is cut there, and the two sides for themselves. -/
theorem pieces_append (a b : List Char) : pieces c (a ++ c :: b) = pieces c a ++ pieces c b := by
  induction a with
  | nil => exact pieces_cons_self c b
  | cons x a ih =>
    by_cases hx : x = c
    · subst hx
      rw [List.cons_append, pieces_cons_self, pieces_cons_self, ih, List.cons_append]
    · obtain ⟨p, ps, hps⟩ := List.exists_cons_of_ne_nil (pieces_ne_nil c a)
      rw [List.cons_append, pieces_cons_of_ne hx, pieces_cons_of_ne hx, ih, hps]
      rfl

theorem pieces_append_cons {p : List Char} (hp : c ∉ p) (xs : List Char) :
    pieces c (p ++ c :: xs) = p :: pieces c xs := by
  rw [pieces_append, pieces_of_not_mem hp, List.singleton_append]

/-- **Pieces without the separating character come back from the text that they make.** -/
theorem pieces_joined {ps : List (List Char)} (hne : ps ≠ []) (h : ∀ p ∈ ps, c ∉ p) :
    pieces c (joined c ps) = ps := by
  induction ps with
  | nil => exact absurd rfl hne
  | cons p ps ih =>
    rw [List.forall_mem_cons] at h
    cases ps with
    | nil =>
      rw [joined, List.intercalate_singleton]
      exact pieces_of_not_mem h.1
    | cons q ps =>
      rw [joined, List.intercalate_cons_cons, List.append_assoc, List.singleton_append,
        pieces_append_cons h.1]
      exact congrArg (p :: ·) (ih (by simp) h.2)

/-- There is one piece more than there are separating characters. -/
theorem length_pieces (c : Char) (xs : List Char) : (pieces c xs).length = xs.count c + 1 := by
  induction xs with
  | nil => rfl
  | cons x xs ih =>
    by_cases hx : x = c
    · subst hx
      rw [pieces_cons_self, List.length_cons, ih, List.count_cons_self]
    · obtain ⟨p, ps, hps⟩ := List.exists_cons_of_ne_nil (pieces_ne_nil c xs)
      rw [pieces_cons_of_ne hx, hps, consFirst, List.count_cons_of_ne hx, ← ih, hps,
        List.length_cons, List.length_cons]

/-- Behind the first piece, every piece has the separating character in front. -/
theorem joined_cons (c : Char) (p : List Char) (ps : List (List Char)) :
    joined c (p :: ps) = p ++ ps.flatMap (c :: ·) := by
  induction ps generalizing p with
  | nil => simp [joined]
  | cons q ps ih =>
    rw [joined, List.intercalate_cons_cons, ← joined, ih, List.flatMap_cons, List.append_assoc]
    rfl

theorem exists_joined_cons (c : Char) (p : List Char) (ps : List (List Char)) :
    ∃ rest, joined c (p :: ps) = p ++ rest :=
  ⟨_, joined_cons c p ps⟩

theorem joined_ne_nil {ps : List (List Char)} (hps : ∀ p ∈ ps, p ≠ []) (hne : ps ≠ []) :
    joined c ps ≠ [] := by
  obtain ⟨p, ps, rfl⟩ := List.exists_cons_of_ne_nil hne
  obtain ⟨rest, hrest⟩ := exists_joined_cons c p ps
  rw [hrest]
  exact List.append_ne_nil_of_left_ne_nil (hps p List.mem_cons_self) rest

theorem mem_joined {x : Char} {ps : List (List Char)} (h : x ∈ joined c ps) :
    x = c ∨ ∃ p ∈ ps, x ∈ p := by
  induction ps with
  | nil => simp [joined] at h
  | cons p ps ih =>
    cases ps with
    | nil =>
      rw [joined, List.intercalate_singleton] at h
      exact .inr ⟨p, by simp, h⟩
    | cons q ps =>
      rw [joined, List.intercalate_cons_cons, List.append_assoc, List.mem_append, List.mem_append,
        List.mem_singleton] at h
      rcases h with h | rfl | h
      · exact .inr ⟨p, by simp, h⟩
      · exact .inl rfl
      · rcases ih h with rfl | ⟨r, hr, hx⟩
        · exact .inl rfl
        · exact .inr ⟨r, List.mem_cons_of_mem p hr, hx⟩

theorem infix_joined {p : List Char} {ps : List (List Char)} (hp : p ∈ ps) :
    p <:+: joined c ps := by
  induction ps with
  | nil => cases hp
  | cons q ps ih =>
    rcases List.mem_cons.1 hp with rfl | hp
    · obtain ⟨rest, hrest⟩ := exists_joined_cons c p ps
      exact hrest ▸ (List.prefix_append p rest).isInfix
    · obtain ⟨r, rs, rfl⟩ := List.exists_cons_of_ne_nil (List.ne_nil_of_mem hp)
      have hsuffix : joined c (r :: rs) <:+ joined c (q :: r :: rs) := by
        rw [joined, joined, List.intercalate_cons_cons]
        exact List.suffix_append _ _
      exact (ih hp).trans hsuffix.isInfix

theorem infix_of_mem_pieces {xs p : List Char} (h : p ∈ pieces c xs) : p <:+: xs := by
  have hinfix := infix_joined (c := c) h
  rwa [joined_pieces] at hinfix

/-- A filter that keeps the separating character may be used before or after the cutting. -/
theorem pieces_filter {keep : Char → Bool} (hc : keep c = true) (xs : List Char) :
    pieces c (xs.filter keep) = (pieces c xs).map (List.filter keep) := by
  induction xs with
  | nil => rfl
  | cons x xs ih =>
    by_cases hx : x = c
    · subst hx
      rw [List.filter_cons_of_pos hc, pieces_cons_self, pieces_cons_self, ih, List.map_cons,
        List.filter_nil]
    · obtain ⟨p, ps, hps⟩ := List.exists_cons_of_ne_nil (pieces_ne_nil c xs)
      rw [pieces_cons_of_ne hx, hps, consFirst, List.map_cons]
      rw [hps, List.map_cons] at ih
      by_cases hkeep : keep x = true
      · rw [List.filter_cons_of_pos hkeep, pieces_cons_of_ne hx, ih, consFirst,
          List.filter_cons_of_pos hkeep]
      · rw [List.filter_cons_of_neg hkeep, ih, List.filter_cons_of_neg hkeep]

/-- A filter that keeps the separating character may be used before or after the joining. -/
theorem joined_filter {keep : Char → Bool} (hc : keep c = true) (ps : List (List Char)) :
    (joined c ps).filter keep = joined c (ps.map (List.filter keep)) := by
  cases ps with
  | nil => rfl
  | cons p ps =>
    have hcons (q : List Char) : (c :: q).filter keep = c :: q.filter keep :=
      List.filter_cons_of_pos hc
    have hrest : (ps.flatMap (c :: ·)).filter keep =
        (ps.map (List.filter keep)).flatMap (c :: ·) := by
      rw [List.filter_flatMap, List.flatMap_map]
      simp only [hcons]
    rw [joined_cons, List.filter_append, hrest, List.map_cons, joined_cons]

theorem pieces_erase {d : Char} (hcd : c ≠ d) (xs : List Char) :
    pieces c (erase d xs) = (pieces c xs).map (erase d) :=
  @pieces_filter c (· != d) (bne_iff_ne.2 hcd) xs

end SearchBox.Text
