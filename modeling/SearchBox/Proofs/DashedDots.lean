import SearchBox.Proofs.Cleaning
import SearchBox.Proofs.Numeral
import SearchBox.Proofs.Pieces
import SearchBox.Proofs.Separator
import SearchBox.Proofs.Span

/-!
# Dashes in place of dots

A box of numbers writes a dash for every two dots before it compiles a text, and the compiler of
integers takes two dots as a separator by itself. The two agree on intervals with an integer before
the dots, and they differ in two ways. Where an integer should begin, two dots are refused, while a
dash in their place is a sign (`DotsAsSign`). And a sign that has blanks before it is passed over if
two dots follow, while the search for a dash stops at it (`DashBeforeDots`). There are no other
differences, and never two different results (`Range.compile_withDashes`).
-/

namespace SearchBox

open Text Token

/-! ### Two dots -/

namespace Text

variable {cs a b : List Char}

/-- The first two dots become a dash, and the dots behind them are rewritten on their own. -/
theorem dashDots_of_cutDots (h : cutDots cs = some (a, b)) :
    dashDots cs = a ++ '-' :: dashDots b := by
  fun_induction cutDots cs generalizing a with
  | case1 =>
    cases h
    exact dashDots_dots _
  | case2 c rest hdots ih =>
    obtain ⟨⟨a', b'⟩, hcut, heq⟩ := Option.map_eq_some_iff.1 h
    cases heq
    rw [dashDots.eq_2 c rest hdots, ih hcut]
    rfl
  | case3 => cases h

theorem dashDots_of_cutDots_eq_none (h : cutDots cs = none) : dashDots cs = cs := by
  fun_induction cutDots cs with
  | case1 => cases h
  | case2 c rest hdots ih => rw [dashDots.eq_2 c rest hdots, ih (Option.map_eq_none_iff.1 h)]
  | case3 => rfl

theorem dashDots_append_dots (ha : '.' ∉ a) (hb : '.' ∉ b) :
    dashDots (a ++ '.' :: '.' :: b) = a ++ '-' :: b := by
  rw [dashDots_of_cutDots (cutDots_append_dots ha b), dashDots_of_not_mem hb]

/-- Dots may be rewritten before or after a text is cut at another character. -/
theorem pieces_dashDots {c : Char} (hdot : c ≠ '.') (hdash : c ≠ '-') (cs : List Char) :
    pieces c (dashDots cs) = (pieces c cs).map dashDots := by
  fun_induction dashDots cs with
  | case1 rest ih =>
    obtain ⟨p, ps, hps⟩ := List.exists_cons_of_ne_nil (pieces_ne_nil c rest)
    rw [pieces_cons_of_ne (Ne.symm hdash), ih, pieces_cons_of_ne (Ne.symm hdot),
      pieces_cons_of_ne (Ne.symm hdot), hps]
    simp [consFirst]
  | case2 x rest hdots ih =>
    by_cases hx : x = c
    · subst hx
      rw [pieces_cons_self, pieces_cons_self, ih]
      rfl
    · obtain ⟨ps, hps⟩ := exists_pieces_eq_cons c rest
      -- The first piece begins as the text does, so it has no second dot either.
      have hhead : x = '.' → (rest.takeWhile (· != c)).head? ≠ some '.' := by
        intro hdot hhead
        obtain ⟨q, hq⟩ := List.head?_eq_some_iff.1 hhead
        obtain ⟨suffix, hrest⟩ := List.takeWhile_prefix (l := rest) (· != c)
        exact hdots (q ++ suffix) hdot (by rw [← hrest, hq]; rfl)
      rw [pieces_cons_of_ne hx, pieces_cons_of_ne hx, ih, hps, List.map_cons, consFirst, consFirst,
        List.map_cons, dashDots_cons hhead]
  | case3 => rfl

@[simp] theorem erase_append (c : Char) (cs ds : List Char) :
    erase c (cs ++ ds) = erase c cs ++ erase c ds :=
  List.filter_append cs ds

theorem erase_cons_of_ne {c d : Char} (h : d ≠ c) (cs : List Char) :
    erase c (d :: cs) = d :: erase c cs :=
  List.filter_cons_of_pos (by simpa using h)

theorem erase_dots (a b : List Char) :
    erase ' ' (a ++ '.' :: '.' :: b) = erase ' ' a ++ '.' :: '.' :: erase ' ' b := by
  rw [erase_append, erase_cons_of_ne (by decide), erase_cons_of_ne (by decide)]

theorem erase_dash (a b : List Char) :
    erase ' ' (a ++ '-' :: b) = erase ' ' a ++ '-' :: erase ' ' b := by
  rw [erase_append, erase_cons_of_ne (by decide)]

/-- A text is blank, or there is a last character that is not. -/
theorem blank_or_exists_last (cs : List Char) : (∀ c ∈ cs, isBlank c = true) ∨
    ∃ init c gap, cs = init ++ c :: gap ∧ isBlank c = false ∧ ∀ c ∈ gap, isBlank c = true := by
  induction cs with
  | nil => exact .inl (by simp)
  | cons d ds ih =>
    rcases ih with hblank | ⟨init, c, gap, rfl, hc, hgap⟩
    · cases hd : isBlank d with
      | true => exact .inl (List.forall_mem_cons.2 ⟨hd, hblank⟩)
      | false => exact .inr ⟨[], d, ds, rfl, hd, hblank⟩
    · exact .inr ⟨d :: init, c, gap, rfl, hc, hgap⟩

/-- There is only one such character. -/
theorem last_unique {init init' gap gap' : List Char} {c c' : Char}
    (h : init ++ c :: gap = init' ++ c' :: gap') (hc : isBlank c = false) (hc' : isBlank c' = false)
    (hgap : ∀ c ∈ gap, isBlank c = true) (hgap' : ∀ c ∈ gap', isBlank c = true) : c = c' := by
  rcases List.append_eq_append_iff.1 h with ⟨t, -, ht⟩ | ⟨t, -, ht⟩
  · cases t with
    | nil => exact (List.cons.inj ht).1
    | cons d t =>
      have hmem : c' ∈ gap := by rw [(List.cons.inj ht).2]; simp
      rw [hgap c' hmem] at hc'
      cases hc'
  · cases t with
    | nil => exact (List.cons.inj ht).1.symm
    | cons d t =>
      have hmem : c ∈ gap' := by rw [(List.cons.inj ht).2]; simp
      rw [hgap' c hmem] at hc
      cases hc

theorem mem_erase_iff {c d : Char} (h : d ≠ c) : d ∈ erase c cs ↔ d ∈ cs := by
  simp [erase, h]

theorem blank_of_erase (h : ∀ c ∈ erase ' ' cs, isBlank c = true) :
    ∀ c ∈ cs, isBlank c = true := by
  intro c hc
  by_cases hspace : c = ' '
  · rw [hspace]
    rfl
  · exact h c ((mem_erase_iff hspace).2 hc)

end Text

theorem Cleaning.withDashes_of_cutDots {cs a b : List Char} (h : cutDots cs = some (a, b)) :
    withDashes cs = erase ' ' a ++ '-' :: withDashes b := by
  rw [withDashes, dashDots_of_cutDots h, erase_dash]
  rfl

/-! ### Integers with blanks around them -/

namespace Reader

variable {cs a b : List Char} {n : Int}

theorem exists_not_blank_of_readInteger (h : readInteger cs = .ok n) :
    ∃ c ∈ cs, isBlank c = false := by
  obtain ⟨pre, sign, ds, post, rfl, -, -, ⟨hne, hds⟩, -⟩ := exists_of_readInteger h
  obtain ⟨d, ds, rfl⟩ := List.exists_cons_of_ne_nil hne
  exact ⟨d, by simp, not_blank_of_isAsciiDigit (hds d (by simp))⟩

/-- **A dash in an integer has only blanks before it, and digits behind it.** -/
theorem blank_of_readInteger_dash (h : readInteger (a ++ '-' :: b) = .ok n) :
    (∀ c ∈ a, isBlank c = true) ∧ ∃ c ∈ b, isBlank c = false := by
  obtain ⟨pre, sign, ds, post, heq, hpre, hsign, ⟨hne, hds⟩, hpost⟩ := exists_of_readInteger h
  have hminus (cs : List Char) (hcs : ∀ c ∈ cs, isBlank c = true) : '-' ∉ cs := fun hmem =>
    absurd (hcs '-' hmem) (by decide)
  have hpre' : '-' ∉ pre := hminus pre hpre
  have hrest : '-' ∉ ds ++ post := by
    rw [List.mem_append, not_or]
    exact ⟨fun hmem => absurd (hds '-' hmem) (by decide), hminus post hpost⟩
  have hsign' : sign = ['-'] := by
    rcases hsign with rfl | rfl | rfl
    · have hmem : '-' ∈ pre ++ [] ++ (ds ++ post) := heq ▸ by simp
      simp [hpre', List.mem_append.not.1 hrest] at hmem
    · rfl
    · have hmem : '-' ∈ pre ++ ['+'] ++ (ds ++ post) := heq ▸ by simp
      simp [hpre', List.mem_append.not.1 hrest] at hmem
  rw [hsign', List.append_assoc, List.singleton_append] at heq
  obtain ⟨rfl, -, rfl⟩ := (List.append_cons_inj_of_notMem hpre' hrest).1 heq.symm
  obtain ⟨d, ds, rfl⟩ := List.exists_cons_of_ne_nil hne
  exact ⟨hpre, d, by simp, not_blank_of_isAsciiDigit (hds d (by simp))⟩

end Reader

/-! ### One piece -/

/-- Before two dots there is a dash that is not the first character, once spaces are dropped. -/
def DashBeforeDots (p : List Char) : Prop :=
  ∃ a b, p = a ++ '.' :: '.' :: b ∧ '-' ∈ (erase ' ' a).tail

/-- Two dots stand where an integer begins: with nothing but blanks before them, or with nothing but
blanks between them and a dash or a dot. -/
inductive DotsAsSign : List Char → Prop
  | first {gap b : List Char} (hgap : ∀ c ∈ gap, isBlank c = true) :
    DotsAsSign (gap ++ '.' :: '.' :: b)
  | behind {a gap b : List Char} {c : Char} (hc : c = '-' ∨ c = '.')
    (hgap : ∀ c ∈ gap, isBlank c = true) : DotsAsSign (a ++ c :: (gap ++ '.' :: '.' :: b))

namespace Range.OfPiece

variable {p cs a b : List Char} {c : Constraint}

/-- What is compiled has integers on both sides of its separator, or is one itself. -/
theorem exists_readInteger (h : OfPiece cs c) :
    (split? true cs = none ∧ ∃ n, Reader.readInteger cs = .ok n) ∨
      ∃ s, split? true cs = some s ∧ (∃ n, Reader.readInteger s.low = .ok n) ∧
        (s.high ≠ [] → ∃ n, Reader.readInteger s.high = .ok n) := by
  cases h with
  | value hsplit hn => exact .inl ⟨hsplit, _, hn⟩
  | atLeast hsplit hlow hhigh => exact .inr ⟨_, hsplit, ⟨_, hlow⟩, fun hne => absurd hhigh hne⟩
  | interval hsplit hlow _ hhigh => exact .inr ⟨_, hsplit, ⟨_, hlow⟩, fun _ => ⟨_, hhigh⟩⟩

/-- The separator makes no difference. -/
theorem of_split? {s : Split} {sep : Separator} {ds : List Char} (h : OfPiece cs c)
    (hcs : split? true cs = some s) (hds : split? true ds = some ⟨s.low, sep, s.high⟩) :
    OfPiece ds c := by
  cases h with
  | value hsplit =>
    rw [hcs] at hsplit
    cases hsplit
  | atLeast hsplit hlow hhigh =>
    rw [hcs] at hsplit
    cases hsplit
    exact .atLeast hds hlow hhigh
  | interval hsplit hlow hne hhigh =>
    rw [hcs] at hsplit
    cases hsplit
    exact .interval hds hlow hne hhigh

/-- **In what is compiled, two dots are the separator.** -/
theorem split?_of_dots (h : OfPiece (a ++ '.' :: '.' :: b) c) :
    '.' ∉ a ∧ '.' ∉ b ∧ split? true (a ++ '.' :: '.' :: b) = some ⟨a, .dots, b⟩ ∧
      ∃ n, Reader.readInteger a = .ok n := by
  rcases h.exists_readInteger with ⟨-, n, hn⟩ | ⟨⟨low, sep, high⟩, hsplit, ⟨n, hlow⟩, hhigh⟩
  · exact absurd (by simp) (Reader.not_mem_of_readInteger hn (List.mem_cons_self))
  · have hlow' : '.' ∉ low := Reader.not_mem_of_readInteger hlow List.mem_cons_self
    have hhigh' : '.' ∉ high := by
      intro hmem
      obtain ⟨m, hm⟩ := hhigh (List.ne_nil_of_mem hmem)
      exact Reader.not_mem_of_readInteger hm List.mem_cons_self hmem
    have htext := text_of_split? hsplit
    dsimp only at htext
    have hnone : low.count '.' = 0 ∧ high.count '.' = 0 :=
      ⟨List.count_eq_zero_of_not_mem hlow', List.count_eq_zero_of_not_mem hhigh'⟩
    have hcount := congrArg (List.count '.') htext
    simp only [List.count_append, List.count_cons_self, hnone.1, hnone.2] at hcount
    have hsep : sep = .dots := by
      cases sep with
      | dots => rfl
      | dash => simp [Separator.text] at hcount
    subst hsep
    have htwo : Separator.dots.text.count '.' = 2 := rfl
    have ha : '.' ∉ a := List.count_eq_zero.1 (by omega)
    have hb : '.' ∉ b := List.count_eq_zero.1 (by omega)
    -- A text with two dots in all is cut there, so both cuts are the same.
    have heq : low ++ '.' :: '.' :: high = a ++ '.' :: '.' :: b := by
      simpa [Separator.text] using htext
    have hcut := cutDots_append_dots hlow' high
    rw [heq, cutDots_append_dots ha b] at hcut
    cases hcut
    exact ⟨ha, hb, hsplit, n, hlow⟩

/-- Where two dots are compiled, they become the dash, and nothing else changes. -/
theorem withDashes_of_dots (h : OfPiece (erase ' ' (a ++ '.' :: '.' :: b)) c) :
    Cleaning.withDashes (a ++ '.' :: '.' :: b) = erase ' ' a ++ '-' :: erase ' ' b := by
  rw [erase_dots] at h
  obtain ⟨ha, hb, -, -⟩ := h.split?_of_dots
  rw [mem_erase_iff (by decide)] at ha hb
  rw [Cleaning.withDashes, dashDots_append_dots ha hb, erase_dash]

/-- Two dots that are compiled have an integer before them. -/
theorem not_dotsAsSign (h : OfPiece (erase ' ' p) c) : ¬ DotsAsSign p := by
  intro hsign
  cases hsign with
  | @first gap b hgap =>
    rw [erase_dots] at h
    obtain ⟨-, -, -, n, hn⟩ := h.split?_of_dots
    obtain ⟨d, hd, hnot⟩ := Reader.exists_not_blank_of_readInteger hn
    rw [hgap d (List.mem_of_mem_filter hd)] at hnot
    cases hnot
  | @behind a gap b x hx hgap =>
    rw [← List.cons_append, ← List.append_assoc, erase_dots] at h
    obtain ⟨hdot, -, -, n, hn⟩ := h.split?_of_dots
    rcases hx with rfl | rfl
    · rw [erase_dash] at hn
      obtain ⟨d, hd, hnot⟩ := (Reader.blank_of_readInteger_dash hn).2
      rw [hgap d (List.mem_of_mem_filter hd)] at hnot
      cases hnot
    · rw [mem_erase_iff (by decide)] at hdot
      exact hdot (by simp)

/-- If the dash is found where the dots were, then the text is compiled as before. -/
theorem withDashes (h : OfPiece (erase ' ' p) c) (hp : ¬ DashBeforeDots p) :
    OfPiece (Cleaning.withDashes p) c := by
  cases hcut : cutDots p with
  | none => rwa [Cleaning.withDashes, dashDots_of_cutDots_eq_none hcut]
  | some ends =>
    obtain ⟨a, b⟩ := ends
    obtain rfl := cutDots_eq_some hcut
    rw [withDashes_of_dots h]
    rw [erase_dots] at h
    obtain ⟨-, hb, hsplit, n, hn⟩ := h.split?_of_dots
    obtain ⟨x, l, hl⟩ := List.exists_cons_of_ne_nil (low_ne_nil_of_split? hsplit)
    dsimp only at hl
    have hdash : '-' ∉ l := fun hmem => hp ⟨a, b, rfl, by rwa [hl]⟩
    have hunbroken : Unbroken (erase ' ' a) := by
      rw [hl] at hn ⊢
      exact unbroken_of_not_mem hdash fun y hy => Reader.not_mem_of_readInteger hn hy
    exact h.of_split? hsplit (hunbroken.split?_dash (cutDots_of_not_mem hb))

/-- If a dash stands before the dots, then it has only blanks before it, and they are no integer. -/
theorem not_withDashes (h : OfPiece (erase ' ' p) c) (hp : DashBeforeDots p) (d : Constraint) :
    ¬ OfPiece (Cleaning.withDashes p) d := by
  obtain ⟨a, b, rfl, hdash⟩ := hp
  rw [withDashes_of_dots h]
  rw [erase_dots] at h
  obtain ⟨ha, hb, hsplit, n, hn⟩ := h.split?_of_dots
  obtain ⟨x, l, hl⟩ := List.exists_cons_of_ne_nil (low_ne_nil_of_split? hsplit)
  dsimp only at hl
  rw [hl, List.tail_cons] at hdash
  obtain ⟨l, rest, rfl, hl'⟩ := List.eq_append_cons_of_mem hdash
  have hmarks := fun y hy => Reader.not_mem_of_readInteger hn (c := y) hy
  rw [hl] at hn ha hmarks ⊢
  have hblank := (Reader.blank_of_readInteger_dash (a := x :: l) hn).1
  have hunbroken : Unbroken (x :: l) :=
    unbroken_of_not_mem hl' fun y hy hmem =>
      hmarks y hy (List.subset_append_left (x :: l) ('-' :: rest) hmem)
  have hrest : cutDots (rest ++ '-' :: erase ' ' b) = none := by
    refine cutDots_of_not_mem fun hmem => ?_
    rcases List.mem_append.1 hmem with hmem | hmem
    · exact ha (List.mem_append_right (x :: l) (List.mem_cons_of_mem '-' hmem))
    · exact hb ((List.mem_cons.1 hmem).resolve_left (by decide))
  have hsplit' := hunbroken.split?_dash hrest
  intro hd
  rw [List.cons_append, List.append_assoc, List.cons_append, ← List.cons_append] at hd
  rcases hd.exists_readInteger with ⟨hnone, -⟩ | ⟨s, hs, ⟨m, hm⟩, -⟩
  · rw [hsplit'] at hnone
    cases hnone
  · rw [hsplit'] at hs
    cases hs
    obtain ⟨y, hy, hnot⟩ := Reader.exists_not_blank_of_readInteger hm
    rw [hblank y hy] at hnot
    cases hnot

/-- **In what is compiled, a dash with a character before it that is no blank, dash or dot is the
separator.** As a sign it would stand behind blanks only, or behind the separator. -/
theorem split?_of_dash {init gap rest : List Char} {x : Char}
    (h : OfPiece (init ++ x :: gap ++ '-' :: rest) c) (hx : isBlank x = false)
    (hx' : ¬ (x = '-' ∨ x = '.')) (hgap : ∀ y ∈ gap, isBlank y = true) :
    split? true (init ++ x :: gap ++ '-' :: rest) = some ⟨init ++ x :: gap, .dash, rest⟩ ∧
      (∃ n, Reader.readInteger (init ++ x :: gap) = .ok n) ∧
      (rest ≠ [] → ∃ n, Reader.readInteger rest = .ok n) := by
  have hnot : ¬ ∀ y ∈ init ++ x :: gap, isBlank y = true := by
    intro hblank
    rw [hblank x (by simp)] at hx
    cases hx
  rcases h.exists_readInteger with ⟨-, n, hn⟩ | ⟨⟨low, sep, high⟩, hsplit, ⟨n, hn⟩, hhigh⟩
  · exact absurd (Reader.blank_of_readInteger_dash hn).1 hnot
  dsimp only at hn hhigh
  rcases dash_cases (text_of_split? hsplit) with ⟨t, ht⟩ | ⟨hsep, hlow, hrest⟩ | ⟨t, ht, ht'⟩
  · dsimp only at ht
    rw [ht] at hn
    exact absurd (Reader.blank_of_readInteger_dash hn).1 hnot
  · dsimp only at hsep hlow hrest
    subst hsep hlow hrest
    exact ⟨hsplit, ⟨n, hn⟩, hhigh⟩
  · dsimp only at ht ht'
    obtain ⟨m, hm⟩ := hhigh (by rw [ht']; simp)
    rw [ht'] at hm
    obtain ⟨mark, y, hmark, hy⟩ := sep.exists_text_eq
    rw [hmark, ← List.append_assoc, List.append_assoc _ [y] t, List.singleton_append] at ht
    have hy' : isBlank y = false := by rcases hy with rfl | rfl <;> rfl
    obtain rfl := last_unique ht hx hy' hgap (Reader.blank_of_readInteger_dash hm).1
    exact absurd hy hx'

/-- The dots of an upper end would become its sign, and stand behind those of the separator. -/
theorem withDashes_of_upper
    (h : Cleaning.withDashes b ≠ [] → ∃ n, Reader.readInteger (Cleaning.withDashes b) = .ok n)
    (hp : ¬ DotsAsSign (a ++ '.' :: '.' :: b)) : Cleaning.withDashes b = erase ' ' b := by
  cases hcut : cutDots b with
  | none => rw [Cleaning.withDashes, dashDots_of_cutDots_eq_none hcut]
  | some ends =>
    obtain ⟨gap, rest⟩ := ends
    rw [Cleaning.withDashes_of_cutDots hcut] at h
    obtain ⟨n, hn⟩ := h (by simp)
    have hblank := blank_of_erase (Reader.blank_of_readInteger_dash hn).1
    obtain rfl := cutDots_eq_some hcut
    refine absurd ?_ hp
    simpa using DotsAsSign.behind (a := a ++ ['.']) (.inr rfl) hblank

/-- **If an integer ends before all dots, then a text whose dots became dashes is compiled as it was
typed.** -/
theorem of_withDashes (h : OfPiece (Cleaning.withDashes p) c) (hp : ¬ DotsAsSign p) :
    OfPiece (erase ' ' p) c := by
  cases hcut : cutDots p with
  | none => rwa [Cleaning.withDashes, dashDots_of_cutDots_eq_none hcut] at h
  | some ends =>
    obtain ⟨a, b⟩ := ends
    rw [Cleaning.withDashes_of_cutDots hcut] at h
    obtain rfl := cutDots_eq_some hcut
    -- Before the dots there is a last character that is not blank, and it is no dash and no dot.
    rcases blank_or_exists_last a with hblank | ⟨init, x, gap, rfl, hx, hgap⟩
    · exact absurd (.first hblank) hp
    have hx' : ¬ (x = '-' ∨ x = '.') := fun hx' => hp (by simpa using DotsAsSign.behind hx' hgap)
    have hspace : x ≠ ' ' := by
      rintro rfl
      cases hx
    have hgap' : ∀ y ∈ erase ' ' gap, isBlank y = true := fun y hy =>
      hgap y (List.mem_of_mem_filter hy)
    rw [erase_append, erase_cons_of_ne hspace] at h
    obtain ⟨hsplit, ⟨n, hn⟩, hhigh⟩ := h.split?_of_dash hx hx' hgap'
    have hdot := Reader.not_mem_of_readInteger hn (c := '.') List.mem_cons_self
    rw [erase_dots, erase_append, erase_cons_of_ne hspace]
    rw [withDashes_of_upper hhigh hp] at h hsplit
    exact h.of_split? hsplit (split?_dots true (low_ne_nil_of_split? hsplit) hdot (erase ' ' b))

end Range.OfPiece

/-! ### Lists -/

namespace Range

variable {key : String} {t : List Char} {f : Fragment}

theorem compile_integer_eq_ok : compile (.plain Reader.integer) key t = .ok f ↔
    ∃ cs, List.Forall₂ OfPiece (pieces ',' (erase ' ' t)) cs ∧ fragmentOf key cs = f := by
  have hpieces (cs : List Constraint) :
      (pieces ',' (erase ' ' t)).mapM (ofPiece (.plain Reader.integer)) = .ok cs ↔
        List.Forall₂ OfPiece (pieces ',' (erase ' ' t)) cs := by
    constructor
    · exact fun h => (forall₂_of_mapM h).imp fun _ _ => ofPiece_integer_eq_ok.1
    · exact fun h => mapM_of_forall₂ (h.imp fun _ _ => ofPiece_integer_eq_ok.2)
  rw [compile, ofPieces_eq_map, map_eq_ok]
  exact exists_congr fun cs => and_congr_left' (hpieces cs)

/-- The text is compiled piece by piece. -/
theorem compile_integer_iff : compile (.plain Reader.integer) key t = .ok f ↔
    ∃ cs, List.Forall₂ (fun p c => OfPiece (erase ' ' p) c) (pieces ',' t) cs ∧
      fragmentOf key cs = f := by
  rw [compile_integer_eq_ok, pieces_erase (by decide)]
  simp only [List.forall₂_map_left_iff]

/-- The text with dashes is compiled piece by piece, and each piece has its own dashes. -/
theorem compile_withDashes_iff :
    compile (.plain Reader.integer) key (Cleaning.withDashes t) = .ok f ↔
    ∃ cs, List.Forall₂ (fun p c => OfPiece (Cleaning.withDashes p) c) (pieces ',' t) cs ∧
      fragmentOf key cs = f := by
  have herase : erase ' ' (Cleaning.withDashes t) = erase ' ' (dashDots t) := by
    rw [Cleaning.withDashes, erase, erase, List.filter_filter]
    simp only [Bool.and_self]
  rw [compile_integer_eq_ok, herase, pieces_erase (by decide),
    pieces_dashDots (by decide) (by decide), List.map_map]
  simp only [List.forall₂_map_left_iff]
  rfl

/-- **Dashes in place of dots.** If a text compiles as it is, then it compiles to the same with
dashes in place of its dots if and only if no piece has a dash before its dots that is not the first
character. If it compiles with dashes, then it compiles to the same as it is if and only if in no
piece two dots stand where an integer begins. It never compiles to two different fragments. -/
theorem compile_withDashes (key : String) (t : List Char) :
    (∀ f, compile (.plain Reader.integer) key t = .ok f →
      (compile (.plain Reader.integer) key (Cleaning.withDashes t) = .ok f ↔
        ∀ p ∈ pieces ',' t, ¬ DashBeforeDots p)) ∧
    (∀ f, compile (.plain Reader.integer) key (Cleaning.withDashes t) = .ok f →
      (compile (.plain Reader.integer) key t = .ok f ↔ ∀ p ∈ pieces ',' t, ¬ DotsAsSign p)) ∧
    ∀ f g, compile (.plain Reader.integer) key t = .ok f →
      compile (.plain Reader.integer) key (Cleaning.withDashes t) = .ok g → f = g := by
  have hsigns (f : Fragment) (h : compile (.plain Reader.integer) key t = .ok f) :
      ∀ p ∈ pieces ',' t, ¬ DotsAsSign p := by
    obtain ⟨cs, hcs, -⟩ := compile_integer_iff.1 h
    intro p hp
    obtain ⟨c, hc⟩ := exists_forall₂_iff.1 ⟨cs, hcs⟩ p hp
    exact hc.not_dotsAsSign
  have hdirect (f : Fragment)
      (h : compile (.plain Reader.integer) key (Cleaning.withDashes t) = .ok f)
      (hp : ∀ p ∈ pieces ',' t, ¬ DotsAsSign p) :
      compile (.plain Reader.integer) key t = .ok f := by
    obtain ⟨cs, hcs, hf⟩ := compile_withDashes_iff.1 h
    refine compile_integer_iff.2 ⟨cs, ?_, hf⟩
    exact ((List.forall₂_and_left _ _).2 ⟨hp, hcs⟩).imp fun p c hpc => hpc.2.of_withDashes hpc.1
  refine ⟨fun f hf => ⟨fun hd p hp hdash => ?_, fun hp => ?_⟩,
    fun f hf => ⟨hsigns f, hdirect f hf⟩, fun f g hf hg => ?_⟩
  · obtain ⟨cs, hcs, -⟩ := compile_integer_iff.1 hf
    obtain ⟨ds, hds, -⟩ := compile_withDashes_iff.1 hd
    obtain ⟨c, hc⟩ := exists_forall₂_iff.1 ⟨cs, hcs⟩ p hp
    obtain ⟨d, hd⟩ := exists_forall₂_iff.1 ⟨ds, hds⟩ p hp
    exact hc.not_withDashes hdash d hd
  · obtain ⟨cs, hcs, rfl⟩ := compile_integer_iff.1 hf
    refine compile_withDashes_iff.2 ⟨cs, ?_, rfl⟩
    exact ((List.forall₂_and_left _ _).2 ⟨hp, hcs⟩).imp fun p c hpc => hpc.2.withDashes hpc.1
  · exact Except.ok.inj (hf.symm.trans (hdirect g hg (hsigns f hf)))

/-- A list of intervals is compiled both ways. Dots that become the sign of an upper end are
compiled with dashes only, and a sign behind a tabulator as it is only. -/
theorem compile_withDashes_signs :
    let direct (t : String) := compile (.plain Reader.integer) "n" t.toList
    let dashed (t : String) := compile (.plain Reader.integer) "n" (Cleaning.withDashes t.toList)
    (∀ p ∈ pieces ',' "2..7, -3 .. -1".toList, ¬ DashBeforeDots p ∧ ¬ DotsAsSign p) ∧
    (∃ f, dashed "1....5" = .ok f ∧ direct "1....5" ≠ .ok f) ∧
    ∃ f, direct "\t-5..7" = .ok f ∧ dashed "\t-5..7" ≠ .ok f := by
  intro direct dashed
  have hintervals : direct "2..7, -3 .. -1" = .ok (.anyOf
      [.single "n" (.range (some (.integer 2)) (some (.integer 7))),
        .single "n" (.range (some (.integer (-3))) (some (.integer (-1))))]) := rfl
  have hlarge : dashed "1....5" =
      .ok (.field "n" (.range (some (.integer 1)) (some (.integer (-5))))) := rfl
  have hsmall : direct "\t-5..7" =
      .ok (.field "n" (.range (some (.integer (-5))) (some (.integer 7)))) := rfl
  have hdots : DotsAsSign ("1.".toList ++ '.' :: ([] ++ '.' :: '.' :: "5".toList)) :=
    .behind (.inr rfl) (by simp)
  have hdash : DashBeforeDots "\t-5..7".toList := ⟨"\t-5".toList, "7".toList, rfl, by decide⟩
  refine ⟨fun p hp => ⟨?_, ?_⟩, ⟨_, hlarge, fun h => ?_⟩, ⟨_, hsmall, fun h => ?_⟩⟩
  · exact ((compile_withDashes "n" _).1 _ hintervals).1 rfl p hp
  · exact ((compile_withDashes "n" "2..7, -3 .. -1".toList).2.1 _ rfl).1 hintervals p hp
  · exact ((compile_withDashes "n" _).2.1 _ hlarge).1 h _ (List.mem_singleton_self _) hdots
  · exact ((compile_withDashes "n" _).1 _ hsmall).1 h _ (List.mem_singleton_self _) hdash

/-- Two dots at the front are no separator, but with a dash in their place there is a sign. -/
theorem not_compile_withDashes :
    ¬ ∀ (key : String) (t : List Char) (f : Fragment),
      compile (.plain Reader.integer) key t = .ok f ↔
        compile (.plain Reader.integer) key (Cleaning.withDashes t) = .ok f := by
  intro h
  have hdashed : compile (.plain Reader.integer) "n" (Cleaning.withDashes "..5".toList) =
      .ok (.field "n" (.value (.integer (-5)))) := rfl
  have hdirect : compile (.plain Reader.integer) "n" "..5".toList =
      .error (.invalidNumber "..5") := rfl
  have hboth := (h "n" "..5".toList _).2 hdashed
  rw [hdirect] at hboth
  cases hboth

end Range

end SearchBox
