import SearchBox.IntegerList
import SearchBox.Proofs.Failure
import SearchBox.Proofs.Numeral
import SearchBox.Proofs.Pieces
import SearchBox.Proofs.Separator

/-!
# Lists and intervals of integers are read back

What is written for a list of integers, or for an interval with a dash, is read back, in brackets or
not. For an interval with two dots this holds if its upper end is not negative. The sign of a negative
upper end is taken for the separator, because the dashes are looked for before the dots, and then the
dots stay with the lower end, which is no number any more.
-/

namespace SearchBox.IntegerList

open Text Number

/-! ### Texts without brackets and spaces -/

/-- The text as it stands, and in brackets. -/
def bracketings (cs : List Char) : List (List Char) := [cs, '[' :: (cs ++ [']'])]

/-- The first character is no bracket, and no character is a space. -/
structure IsBare (cs : List Char) : Prop where
  ne_nil : cs ≠ []
  not_bracket : cs.head? ≠ some '['
  not_space : ' ' ∉ cs

variable {cs a b text : List Char} {low high : Int}

theorem IsBare.enclosed?_eq (h : IsBare cs) : Token.enclosed? cs = none := by
  unfold Token.enclosed?
  split
  · exact absurd rfl h.not_bracket
  · rfl

/-- Brackets around a text make no difference. -/
theorem read_of_mem_bracketings (h : IsBare cs) (ht : text ∈ bracketings cs) :
    read text = readInside cs := by
  have herase : erase ' ' cs = cs := by
    refine List.filter_eq_self.2 fun c hc => bne_iff_ne.2 ?_
    rintro rfl
    exact h.not_space hc
  rcases List.mem_pair.1 ht with rfl | rfl
  · rw [read, herase, h.enclosed?_eq, Option.getD_none]
    simp [h.ne_nil]
  · have hbrackets : erase ' ' ('[' :: (cs ++ [']'])) = '[' :: (cs ++ [']']) := by
      rw [erase, List.filter_cons_of_pos (by decide), List.filter_append, ← erase, herase]
      rfl
    rw [read, hbrackets, Token.enclosed?_group, Option.getD_some]
    rfl

/-! ### Intervals -/

/-- Two numerals with a dash between them are the ends of an interval. -/
theorem ends?_dash (h : Numeral a low) (b : List Char) : ends? (a ++ '-' :: b) = some (a, b) := by
  obtain ⟨c, ds, rfl, -, hds⟩ := h.exists_cons
  have hdash : '-' ∉ ds := fun hmem => absurd (hds _ hmem) (by decide)
  rw [List.cons_append, ends?, cut_append_cons hdash]
  rfl

/-- The text behind the dots decides how an interval with two dots is taken apart. -/
theorem ends?_dots (h : Numeral a low) (b : List Char) :
    ends? (a ++ '.' :: '.' :: b) =
      some (match cut '-' b with
        | none => (a, b)
        | some (before, after) => (a ++ '.' :: '.' :: before, after)) := by
  obtain ⟨c, ds, rfl, -, hds⟩ := h.exists_cons
  have hdash : '-' ∉ ds := fun hmem => absurd (hds _ hmem) (by decide)
  have hdot : '.' ∉ ds := fun hmem => absurd (hds _ hmem) (by decide)
  cases hcut : cut '-' b with
  | none =>
    have hnone : cut '-' (ds ++ '.' :: '.' :: b) = none := by
      rw [cut_eq_none] at hcut ⊢
      simp [hdash, hcut]
    rw [List.cons_append, ends?, hnone, Token.cutDots_append_dots hdot]
    rfl
  | some ends =>
    obtain ⟨before, after⟩ := ends
    obtain ⟨rfl, hbefore⟩ := cut_eq_some hcut
    have hsome : cut '-' ((ds ++ '.' :: '.' :: before) ++ '-' :: after) =
        some (ds ++ '.' :: '.' :: before, after) :=
      cut_append_cons (by simp [hdash, hbefore]) after
    rw [List.cons_append, ends?, ← List.cons_append, ← List.cons_append, ← List.append_assoc, hsome]
    rfl

/-! ### Reading -/

/-- A text that begins with a numeral is bare if there are no spaces in the rest. -/
theorem isBare_append (h : Numeral a low) (hb : ' ' ∉ b) : IsBare (a ++ b) where
  ne_nil := List.append_ne_nil_of_left_ne_nil h.ne_nil b
  not_bracket := by
    obtain ⟨c, ds, rfl, hc, -⟩ := h.exists_cons
    intro hhead
    cases hhead
    rcases hc with hc | hc <;> cases hc
  not_space := by
    rw [List.mem_append, not_or]
    refine ⟨fun hmem => ?_, hb⟩
    rcases h.of_mem hmem with hc | hc <;> cases hc

/-- A numeral holds none of the other characters of a list. -/
theorem not_mem_of_numeral (h : Numeral a low) {c : Char} (hc : c ∈ [' ', ',', '.']) : c ∉ a := by
  simp only [List.mem_cons, List.not_mem_nil, or_false] at hc
  rcases hc with rfl | rfl | rfl <;> exact h.not_mem (by decide) rfl

/-- **Two numerals with a dash between them are read as an interval.** -/
theorem read_dash (ha : Numeral a low) (hb : Numeral b high) (hlow : Fits low) (hhigh : Fits high)
    (ht : text ∈ bracketings (a ++ '-' :: b)) : read text = .ok (span low high) := by
  have hbare : IsBare (a ++ '-' :: b) :=
    isBare_append ha (by simpa using not_mem_of_numeral hb (by simp))
  have hcomma : ',' ∉ a ++ '-' :: b := by
    simp [not_mem_of_numeral ha, not_mem_of_numeral hb]
  rw [read_of_mem_bracketings hbare ht, readInside, if_neg (by simpa using hcomma), ends?_dash ha]
  simp only [Reader.readInteger_of_numeral ha hlow, Reader.readInteger_of_numeral hb hhigh]
  rfl

theorem readInside_dots (ha : Numeral a low) (hb : Numeral b high) :
    readInside (a ++ '.' :: '.' :: b) =
      match cut '-' b with
      | none => (Reader.readInteger a).bind fun m => (Reader.readInteger b).map fun n => span m n
      | some (before, after) =>
        (Reader.readInteger (a ++ '.' :: '.' :: before)).bind fun m =>
          (Reader.readInteger after).map fun n => span m n := by
  have hcomma : ',' ∉ a ++ '.' :: '.' :: b := by
    simp [not_mem_of_numeral ha, not_mem_of_numeral hb]
  rw [readInside, if_neg (by simpa using hcomma), ends?_dots ha]
  cases cut '-' b <;> rfl

/-- A numeral with two dots behind it is no number. -/
theorem readInteger_dots (h : Numeral a low) :
    Reader.readInteger (a ++ ['.', '.']) =
      .error (.invalidNumber (String.ofList (a ++ ['.', '.']))) := by
  have hblank : ∀ c ∈ a ++ ['.', '.'], isBlank c = false := by
    intro c hc
    rcases List.mem_append.1 hc with hc | hc
    · exact h.not_blank c hc
    · rw [List.mem_pair, or_self] at hc
      rw [hc]
      rfl
  have hnone : readInteger? (a ++ ['.', '.']) = none := by
    rw [Option.eq_none_iff_forall_ne_some]
    intro n hn
    obtain ⟨c, ds, rfl, hc, -⟩ := h.exists_cons
    have hplus : (c :: ds ++ ['.', '.']).head? ≠ some '+' := by
      intro hhead
      cases hhead
      rcases hc with hc | hc <;> cases hc
    rcases (numeral_of_readInteger? hn hplus).of_mem (c := '.') (by simp) with hdot | hdot <;>
      cases hdot
  rw [Reader.readInteger, trim_of_not_blank hblank, hnone]
  rfl

/-- **Two numerals with two dots between them are read as an interval if the second has no sign.** -/
theorem read_dots (ha : Numeral a low) (hb : Numeral b high) (hlow : Fits low) (hhigh : Fits high)
    (hsign : '-' ∉ b) (ht : text ∈ bracketings (a ++ '.' :: '.' :: b)) :
    read text = .ok (span low high) := by
  have hbare : IsBare (a ++ '.' :: '.' :: b) :=
    isBare_append ha (by simpa using not_mem_of_numeral hb (by simp))
  rw [read_of_mem_bracketings hbare ht, readInside_dots ha hb, cut_eq_none.2 hsign]
  simp only [Reader.readInteger_of_numeral ha hlow, Reader.readInteger_of_numeral hb hhigh]
  rfl

/-- If the second has a sign, then the first one is refused together with the dots. -/
theorem read_dots_of_sign {ds : List Char} (ha : Numeral a low) (hb : Numeral ('-' :: ds) high)
    (ht : text ∈ bracketings (a ++ '.' :: '.' :: '-' :: ds)) :
    read text = .error (.invalidNumber (String.ofList (a ++ ['.', '.']))) := by
  have hbare : IsBare (a ++ '.' :: '.' :: '-' :: ds) :=
    isBare_append ha (by simpa using not_mem_of_numeral hb (c := ' ') (by simp))
  have hcut : cut '-' ('-' :: ds) = some ([], ds) := rfl
  rw [read_of_mem_bracketings hbare ht, readInside_dots ha hb, hcut]
  simp only [readInteger_dots ha]
  rfl

theorem mapM_readInteger_decimal {ns : List Int} (h : ∀ n ∈ ns, Fits n) :
    (ns.map decimal).mapM Reader.readInteger = .ok ns := by
  induction ns with
  | nil => rfl
  | cons n ns ih =>
    rw [List.forall_mem_cons] at h
    exact mapM_cons_eq_ok.2 ⟨n, ns, Reader.readInteger_decimal h.1, ih h.2, rfl⟩

theorem ends?_numeral (h : Numeral a low) : ends? a = none := by
  obtain ⟨c, ds, rfl, -, hds⟩ := h.exists_cons
  have hdash : '-' ∉ ds := fun hmem => absurd (hds _ hmem) (by decide)
  have hdot : '.' ∉ ds := fun hmem => absurd (hds _ hmem) (by decide)
  have hdots : Token.cutDots ds = none :=
    Token.cutDots_of_count_le (by simp [List.count_eq_zero_of_not_mem hdot])
  rw [ends?, cut_eq_none.2 hdash, hdots]
  rfl

section Lists

variable {ns : List Int}

theorem space_not_mem_joined (ns : List Int) : ' ' ∉ joined ',' (ns.map decimal) := by
  intro hmem
  rcases mem_joined hmem with hcomma | ⟨p, hp, hmem⟩
  · cases hcomma
  · obtain ⟨n, -, rfl⟩ := List.mem_map.1 hp
    exact not_mem_of_numeral (numeral_decimal n) (by simp) hmem

theorem isBare_joined (hne : ns ≠ []) : IsBare (joined ',' (ns.map decimal)) := by
  obtain ⟨n, ns, rfl⟩ := List.exists_cons_of_ne_nil hne
  have hspace := space_not_mem_joined (n :: ns)
  obtain ⟨rest, hrest⟩ := exists_joined_cons ',' (decimal n) (ns.map decimal)
  rw [List.map_cons, hrest] at hspace ⊢
  exact isBare_append (numeral_decimal n) fun hmem => hspace (List.mem_append_right _ hmem)

theorem pieces_joined_decimal (hne : ns ≠ []) :
    pieces ',' (joined ',' (ns.map decimal)) = ns.map decimal := by
  refine pieces_joined (by simpa using hne) fun p hp => ?_
  obtain ⟨n, -, rfl⟩ := List.mem_map.1 hp
  exact not_mem_of_numeral (numeral_decimal n) (by simp)

/-- **Numerals with commas between them are read as a list.** -/
theorem read_commas (hne : ns ≠ []) (h : ∀ n ∈ ns, Fits n)
    (ht : text ∈ bracketings (joined ',' (ns.map decimal))) : read text = .ok (values ns) := by
  rw [read_of_mem_bracketings (isBare_joined hne) ht, readInside]
  by_cases hcomma : ',' ∈ joined ',' (ns.map decimal)
  · rw [if_pos (by simpa using hcomma), pieces_joined_decimal hne, mapM_readInteger_decimal h]
    rfl
  · -- Without a comma there is one integer only, and a numeral has no separator.
    have hone := pieces_joined_decimal hne
    rw [pieces_of_not_mem hcomma] at hone
    obtain ⟨n, rfl, hn⟩ : ∃ n, ns = [n] ∧ joined ',' (ns.map decimal) = decimal n := by
      obtain ⟨n, ns, rfl⟩ := List.exists_cons_of_ne_nil hne
      obtain ⟨hn, hnil⟩ := List.cons.inj hone
      rw [List.map_eq_nil_iff.1 hnil.symm] at hn ⊢
      exact ⟨n, rfl, hn⟩
    rw [if_neg (by simpa using hcomma), hn, ends?_numeral (numeral_decimal n)]
    simp only [Reader.readInteger_decimal (h n (by simp))]
    rfl

end Lists

/-- **What is written for a list or an interval is read back**, in brackets or not, but for one case.
An interval with a dash is read as the interval with these ends, and so is one with two dots if its
upper end is not negative. With two dots and a negative upper end the text is refused: what stands
before the sign of the upper end, which is the lower end with the dots, is no number. A list of one
integer or more is read as these integers. -/
theorem read_written {low high : Int} {ns : List Int} (hlow : Fits low) (hhigh : Fits high)
    (hne : ns ≠ []) (hns : ∀ n ∈ ns, Fits n) :
    (∀ text ∈ bracketings (decimal low ++ '-' :: decimal high), read text = .ok (span low high)) ∧
    (∀ text ∈ bracketings (decimal low ++ '.' :: '.' :: decimal high),
      (read text = .ok (span low high) ↔ 0 ≤ high) ∧
      (high < 0 →
        read text = .error (.invalidNumber (String.ofList (decimal low ++ ['.', '.']))))) ∧
    ∀ text ∈ bracketings (joined ',' (ns.map decimal)), read text = .ok (values ns) := by
  refine ⟨fun text ht => ?_, fun text ht => ?_, fun text ht => read_commas hne hns ht⟩
  · exact read_dash (numeral_decimal low) (numeral_decimal high) hlow hhigh ht
  · have hplain (h : 0 ≤ high) : read text = .ok (span low high) :=
      read_dots (numeral_decimal low) (numeral_decimal high) hlow hhigh (minus_not_mem_decimal h) ht
    have hsign (h : high < 0) :
        read text = .error (.invalidNumber (String.ofList (decimal low ++ ['.', '.']))) := by
      obtain ⟨ds, hds⟩ := exists_decimal_eq_cons h
      have hb := numeral_decimal high
      rw [hds] at hb ht
      exact read_dots_of_sign (numeral_decimal low) hb ht
    refine ⟨⟨fun hread => ?_, hplain⟩, hsign⟩
    by_contra hneg
    rw [hsign (by omega)] at hread
    cases hread

/-- The least and the greatest integer as the ends of an interval, and a list of them in brackets. -/
theorem read_written_extreme :
    (Fits leastInteger ∧ Fits greatestInteger ∧ [leastInteger, greatestInteger] ≠ [] ∧
      ∀ n ∈ [leastInteger, greatestInteger], Fits n) ∧
    read "-9223372036854775808-9223372036854775807".toList =
      .ok (span leastInteger greatestInteger) ∧
    read "[-9223372036854775808..9223372036854775807]".toList =
      .ok (span leastInteger greatestInteger) ∧
    read "9223372036854775807..-9223372036854775808".toList =
      .error (.invalidNumber "9223372036854775807..") ∧
    read "[-9223372036854775808,9223372036854775807]".toList =
      .ok (values [leastInteger, greatestInteger]) := by
  have hleast : Fits leastInteger := by decide
  have hgreatest : Fits greatestInteger := by decide
  have hne : [leastInteger, greatestInteger] ≠ [] := by decide
  have hns : ∀ n ∈ [leastInteger, greatestInteger], Fits n := by
    simpa using ⟨hleast, hgreatest⟩
  obtain ⟨hdash, hdots, hcommas⟩ := read_written hleast hgreatest hne hns
  obtain ⟨-, hdots', -⟩ := read_written hgreatest hleast hne hns
  refine ⟨⟨hleast, hgreatest, hne, hns⟩, hdash _ (.head _), ?_, ?_, hcommas _ (.tail _ (.head _))⟩
  · exact (hdots _ (.tail _ (.head _))).1.2 (by decide)
  · exact (hdots' _ (.head _)).2 (by decide)

/-- An interval with two dots and a negative upper end is not read back. -/
theorem not_read_dots :
    ¬ ∀ low high, Fits low → Fits high →
      ∀ text ∈ bracketings (decimal low ++ '.' :: '.' :: decimal high),
        read text = .ok (span low high) := by
  intro h
  have hread : read "-5..-2".toList = .ok (span (-5) (-2)) :=
    h (-5) (-2) (by decide) (by decide) _ (.head _)
  cases hread

end SearchBox.IntegerList
