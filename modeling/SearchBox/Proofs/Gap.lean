import Mathlib.Data.List.Basic
import SearchBox.Proofs.Text
import SearchBox.Cleaning

/-!
# Digits that cleaning brings together

Cleaning drops blanks and angle brackets, so two characters that had only these between them become
neighbours. `Joins` says which text stood between two neighbours of the clean text before. The check
on spaces looks for two digits with blanks and nothing else between them (`hasDigitGap_iff`), so it
accepts a text exactly if all digits that are joined over a blank are joined over an angle bracket as
well (`checkSpaces_eq_ok_iff`). Hence digits with a blank between them are kept apart unless an angle
bracket hides the blank (`keepsApart_iff`). Texts that are joined at a character which is no digit and
no blank pass the check together if they pass it one by one (`Token.hasDigitGap_joined`).
-/

namespace SearchBox

open Text

namespace Text

/-- No blank is a digit. -/
theorem isDigit_of_isBlank {c : Char} (h : isBlank c = true) : isDigit c = false := by
  -- The blocks of digits keep clear of the few places where blanks stand.
  have hzeros : ∀ z ∈ digitZeros, z = 48 ∨ 0xA0 < z ∧ (z + 10 ≤ 0x1680 ∨ 0x1680 < z) ∧
      (z + 10 ≤ 0x2000 ∨ 0x3000 < z) := by
    decide
  simp only [isBlank, Bool.or_eq_true, Bool.and_eq_true, decide_eq_true_eq] at h
  rw [isDigit, List.any_eq_false]
  intro z hz hdigit
  simp only [Bool.and_eq_true, decide_eq_true_eq] at hdigit
  have hclear := hzeros z hz
  omega

theorem not_blank_of_isDigit {c : Char} (h : isDigit c = true) : isBlank c = false := by
  by_contra hblank
  rw [isDigit_of_isBlank (by simpa using hblank)] at h
  cases h

end Text

/-! ### Digits with blanks between them -/

namespace Token

/-- A gap opens if blanks follow, at least one, and a digit behind them. -/
theorem opensGap_iff {cs : List Char} :
    opensGap cs = true ↔
      ∃ gap y post, cs = gap ++ y :: post ∧ gap ≠ [] ∧ (∀ c ∈ gap, isBlank c = true) ∧
        isDigit y = true := by
  constructor
  · intro h
    cases cs with
    | nil => cases h
    | cons c rest =>
      rw [opensGap, Bool.and_eq_true, Option.any_eq_true] at h
      obtain ⟨hc, y, hhead, hy⟩ := h
      obtain ⟨post, hpost⟩ := List.head?_eq_some_iff.1 hhead
      refine ⟨c :: rest.takeWhile isBlank, y, post, ?_, by simp, ?_, hy⟩
      · rw [List.cons_append, ← hpost, List.takeWhile_append_dropWhile]
      · exact List.forall_mem_cons.2 ⟨hc, List.all_eq_true.1 List.all_takeWhile⟩
  · rintro ⟨gap, y, post, rfl, hne, hgap, hy⟩
    obtain ⟨c, rest, rfl⟩ := List.exists_cons_of_ne_nil hne
    rw [List.forall_mem_cons] at hgap
    have hblank : ¬ isBlank y = true := by simp [not_blank_of_isDigit hy]
    rw [List.cons_append, opensGap, List.dropWhile_append_of_pos hgap.2,
      List.dropWhile_cons_of_neg hblank, hgap.1, List.head?_cons, Option.any_some, hy]
    rfl

/-- The check looks for two digits with blanks between them, at least one, and nothing else. -/
theorem hasDigitGap_iff {cs : List Char} :
    hasDigitGap cs = true ↔
      ∃ pre x gap y post, cs = pre ++ x :: (gap ++ y :: post) ∧ isDigit x = true ∧ gap ≠ [] ∧
        (∀ c ∈ gap, isBlank c = true) ∧ isDigit y = true := by
  induction cs with
  | nil => simp [hasDigitGap]
  | cons d rest ih =>
    rw [hasDigitGap, Bool.or_eq_true, Bool.and_eq_true, opensGap_iff, ih]
    constructor
    · rintro (⟨hd, gap, y, post, rfl, h⟩ | ⟨pre, x, gap, y, post, rfl, h⟩)
      · exact ⟨[], d, gap, y, post, rfl, hd, h⟩
      · exact ⟨d :: pre, x, gap, y, post, rfl, h⟩
    · rintro ⟨pre, x, gap, y, post, heq, hx, h⟩
      cases pre with
      | nil =>
        obtain ⟨rfl, rfl⟩ := List.cons.inj heq
        exact .inl ⟨hx, gap, y, post, rfl, h⟩
      | cons p pre =>
        obtain ⟨rfl, rfl⟩ := List.cons.inj heq
        exact .inr ⟨pre, x, gap, y, post, rfl, hx, h⟩

/-! ### Texts put together -/

variable {b : List Char}

/-- What follows opens no gap of its own if no digit stands behind the blanks at its front. -/
theorem opensGap_append (hb : (b.dropWhile isBlank).head?.any isDigit = false) (a : List Char) :
    opensGap (a ++ b) = opensGap a := by
  cases a with
  | nil =>
    cases b with
    | nil => rfl
    | cons c b =>
      by_cases hc : isBlank c = true
      · rw [List.dropWhile_cons_of_pos hc] at hb
        simp [opensGap, hb]
      · simp [opensGap, hc]
  | cons c a =>
    have hhead : ((a ++ b).dropWhile isBlank).head?.any isDigit =
        (a.dropWhile isBlank).head?.any isDigit := by
      rw [List.dropWhile_append]
      cases hrest : a.dropWhile isBlank with
      | nil => simpa using hb
      | cons d ds => rfl
    rw [List.cons_append, opensGap, opensGap, hhead]

/-- Between two texts there is no gap if no digit stands behind the blanks where they meet. -/
theorem hasDigitGap_append (hb : (b.dropWhile isBlank).head?.any isDigit = false) (a : List Char) :
    hasDigitGap (a ++ b) = (hasDigitGap a || hasDigitGap b) := by
  induction a with
  | nil => rfl
  | cons c a ih =>
    rw [List.cons_append, hasDigitGap, hasDigitGap, opensGap_append hb, ih, Bool.or_assoc]

theorem hasDigitGap_cons_of_not_digit {c : Char} (hc : isDigit c = false) (cs : List Char) :
    hasDigitGap (c :: cs) = hasDigitGap cs := by
  rw [hasDigitGap, hc, Bool.false_and, Bool.false_or]

/-- A character that is no digit and no blank keeps the digits on its two sides apart. -/
theorem hasDigitGap_append_cons {c : Char} (hdigit : isDigit c = false) (hblank : isBlank c = false)
    (a b : List Char) : hasDigitGap (a ++ c :: b) = (hasDigitGap a || hasDigitGap b) := by
  have hfront : ((c :: b).dropWhile isBlank).head?.any isDigit = false := by
    rw [List.dropWhile_cons_of_neg (by simp [hblank])]
    exact hdigit
  rw [hasDigitGap_append hfront, hasDigitGap_cons_of_not_digit hdigit]

/-- Where texts are joined at such a character, no gap comes about. -/
theorem hasDigitGap_joined {c : Char} (hdigit : isDigit c = false) (hblank : isBlank c = false)
    (ps : List (List Char)) : hasDigitGap (joined c ps) = ps.any hasDigitGap := by
  induction ps with
  | nil => rfl
  | cons p ps ih =>
    cases ps with
    | nil => simp [joined]
    | cons p' ps =>
      rw [joined, List.intercalate_cons_cons, ← joined, List.append_assoc, List.singleton_append,
        hasDigitGap_append_cons hdigit hblank, ih]
      rfl

/-- Blanks at the ends of a text stand between no digits. -/
theorem hasDigitGap_trim (cs : List Char) : hasDigitGap (trim cs) = hasDigitGap cs := by
  obtain ⟨pre, post, hcs, hpre, hpost⟩ := exists_trim cs
  have hfront (ds : List Char) (hds : ∀ c ∈ ds, isBlank c = true) (rest : List Char) :
      hasDigitGap (ds ++ rest) = hasDigitGap rest := by
    induction ds with
    | nil => rfl
    | cons d ds ih =>
      rw [List.forall_mem_cons] at hds
      rw [List.cons_append, hasDigitGap_cons_of_not_digit (isDigit_of_isBlank hds.1), ih hds.2]
  have hback : hasDigitGap post = false := by
    rw [← List.append_nil post, hfront post hpost []]
    rfl
  have hnone : (post.dropWhile isBlank).head?.any isDigit = false := by
    rw [List.dropWhile_eq_nil_iff.2 hpost]
    rfl
  calc hasDigitGap (trim cs)
      = hasDigitGap (pre ++ (trim cs ++ post)) := by
        rw [hfront pre hpre, hasDigitGap_append hnone, hback, Bool.or_false]
    _ = hasDigitGap cs := by rw [← List.append_assoc, ← hcs]

end Token

/-! ### Neighbours in the clean text -/

namespace Cleaning

variable {raw before after gap gap' : List Char} {x y : Char}

theorem stripped_append (cs ds : List Char) :
    stripped false (cs ++ ds) = stripped false cs ++ stripped false ds :=
  List.filter_append cs ds

theorem stripped_cons_of_kept {c : Char} (h : isStripped false c = false) (cs : List Char) :
    stripped false (c :: cs) = c :: stripped false cs :=
  List.filter_cons_of_pos (by simp [h])

theorem stripped_eq_nil_iff {cs : List Char} :
    stripped false cs = [] ↔ ∀ c ∈ cs, isStripped false c = true := by
  simp [stripped]

/-- A character of the clean text stood in the raw text, behind what the clean text has before it. -/
theorem stripped_eq_append_cons_iff {cs : List Char} :
    stripped false cs = before ++ x :: after ↔
      ∃ pre post, cs = pre ++ x :: post ∧ stripped false pre = before ∧
        isStripped false x = false ∧ stripped false post = after := by
  constructor
  · intro h
    obtain ⟨front, rest, rfl, hfront, hrest⟩ := List.filter_eq_append_iff.1 h
    obtain ⟨dropped, post, rfl, hdropped, hx, hpost⟩ := List.filter_eq_cons_iff.1 hrest
    have hnil : stripped false dropped = [] := List.filter_eq_nil_iff.2 hdropped
    refine ⟨front ++ dropped, post, by simp, ?_, by simpa using hx, hpost⟩
    rw [stripped_append, hnil, List.append_nil]
    exact hfront
  · rintro ⟨pre, post, rfl, rfl, hx, rfl⟩
    rw [stripped_append, stripped_cons_of_kept hx]

/-- A character that stays is found again by what stays before it. -/
theorem append_cons_inj {pre pre' post post' : List Char}
    (h : pre ++ x :: post = pre' ++ y :: post') (hx : isStripped false x = false)
    (hy : isStripped false y = false) (hpre : stripped false pre = stripped false pre') :
    pre = pre' ∧ post = post' := by
  have hlonger : ∀ (cs : List Char) {c : Char} (ds : List Char), isStripped false c = false →
      stripped false (cs ++ c :: ds) ≠ stripped false cs := by
    intro cs c ds hc heq
    rw [stripped_append, stripped_cons_of_kept hc] at heq
    simp at heq
  rcases List.append_eq_append_iff.1 h with ⟨d, rfl, hd⟩ | ⟨d, rfl, hd⟩
  · cases d with
    | nil => simpa using (List.cons.inj hd).2
    | cons c d =>
      obtain ⟨rfl, -⟩ := List.cons.inj hd
      exact absurd hpre.symm (hlonger pre d hx)
  · cases d with
    | nil => simpa using (List.cons.inj hd).2.symm
    | cons c d =>
      obtain ⟨rfl, -⟩ := List.cons.inj hd
      exact absurd hpre (hlonger pre' d hy)

/-- In the clean text `x` and `y` stand side by side, between `before` and `after`. In the raw text
`gap` stood between the two, and nothing of it has stayed. -/
def Joins (raw before : List Char) (x : Char) (gap : List Char) (y : Char)
    (after : List Char) : Prop :=
  ∃ pre post, raw = pre ++ x :: (gap ++ y :: post) ∧ stripped false pre = before ∧
    isStripped false x = false ∧ stripped false gap = [] ∧ isStripped false y = false ∧
    stripped false post = after

/-- Any two neighbours of the clean text were joined over some text. -/
theorem exists_joins_iff :
    (∃ gap, Joins raw before x gap y after) ↔
      stripped false raw = before ++ x :: y :: after := by
  constructor
  · rintro ⟨gap, pre, post, rfl, rfl, hx, hgap, hy, rfl⟩
    rw [stripped_append, stripped_cons_of_kept hx, stripped_append, hgap, stripped_cons_of_kept hy,
      List.nil_append]
  · intro h
    obtain ⟨pre, rest, rfl, hpre, hx, hrest⟩ := stripped_eq_append_cons_iff.1 h
    obtain ⟨gap, post, rfl, hgap, hy, hpost⟩ :=
      stripped_eq_append_cons_iff.1 (hrest.trans (List.nil_append (y :: after)).symm)
    exact ⟨gap, pre, post, rfl, hpre, hx, hgap, hy, hpost⟩

/-- There is only one text over which two neighbours can have been joined. -/
theorem Joins.gap_eq (h : Joins raw before x gap y after) (h' : Joins raw before x gap' y after) :
    gap = gap' := by
  obtain ⟨pre, post, rfl, hpre, hx, hgap, hy, -⟩ := h
  obtain ⟨pre', post', heq, hpre', -, hgap', -, -⟩ := h'
  obtain ⟨-, hrest⟩ := append_cons_inj heq hx hx (hpre.trans hpre'.symm)
  exact (append_cons_inj hrest hy hy (hgap.trans hgap'.symm)).1

/-- Of the text over which two neighbours were joined, everything is a blank or an angle bracket. -/
theorem Joins.of_mem_gap (h : Joins raw before x gap y after) {c : Char} (hc : c ∈ gap) :
    isBlank c = true ∨ c = '<' ∨ c = '>' := by
  obtain ⟨-, -, -, -, -, hgap, -, -⟩ := h
  have hstripped := stripped_eq_nil_iff.1 hgap c hc
  simp only [isStripped, Bool.not_false, Bool.true_and, Bool.or_eq_true, decide_eq_true_eq]
    at hstripped
  exact hstripped.symm

theorem isStripped_of_isBlank {c : Char} (h : isBlank c = true) : isStripped false c = true := by
  simp [isStripped, h]

/-- Cleaning keeps all digits. -/
theorem isStripped_of_isDigit {c : Char} (h : isDigit c = true) : isStripped false c = false := by
  have hne : ∀ d, isDigit d = false → c ≠ d := by
    rintro d hd rfl
    rw [h] at hd
    cases hd
  simp [isStripped, hne '<' (by decide), hne '>' (by decide), not_blank_of_isDigit h]

/-! ### What the check on spaces ensures -/

theorem checkSpaces_eq_ok : checkSpaces raw = .ok () ↔ Token.hasDigitGap raw = false := by
  unfold checkSpaces
  cases Token.hasDigitGap raw <;> simp

/-- **The check accepts a text exactly if all digits that are joined over a blank are joined over an
angle bracket as well.** -/
theorem checkSpaces_eq_ok_iff :
    checkSpaces raw = .ok () ↔
      ∀ before x gap y after, Joins raw before x gap y after → isDigit x = true →
        isDigit y = true → (∃ c ∈ gap, isBlank c = true) → ∃ c ∈ gap, c = '<' ∨ c = '>' := by
  rw [checkSpaces_eq_ok]
  constructor
  · rintro hgap before x gap y after hjoins hx hy ⟨b, hb, -⟩
    -- Without an angle bracket all of the gap would be blank, and the check would have found it.
    by_contra hnone
    have hblank : ∀ c ∈ gap, isBlank c = true := fun c hc =>
      (hjoins.of_mem_gap hc).resolve_right fun hangle => hnone ⟨c, hc, hangle⟩
    obtain ⟨pre, post, hraw, -⟩ := hjoins
    have hfound := Token.hasDigitGap_iff.2
      ⟨pre, x, gap, y, post, hraw, hx, List.ne_nil_of_mem hb, hblank, hy⟩
    rw [hgap] at hfound
    cases hfound
  · intro hall
    rw [← Bool.not_eq_true, Token.hasDigitGap_iff]
    rintro ⟨pre, x, gap, y, post, hraw, hx, hne, hblank, hy⟩
    have hnil : stripped false gap = [] :=
      stripped_eq_nil_iff.2 fun c hc => isStripped_of_isBlank (hblank c hc)
    have hjoins : Joins raw (stripped false pre) x gap y (stripped false post) :=
      ⟨pre, post, hraw, rfl, isStripped_of_isDigit hx, hnil, isStripped_of_isDigit hy, rfl⟩
    obtain ⟨b, hb⟩ := List.exists_mem_of_ne_nil gap hne
    obtain ⟨c, hc, hangle⟩ := hall _ x gap y _ hjoins hx hy ⟨b, hb, hblank b hb⟩
    have hcblank := hblank c hc
    rcases hangle with rfl | rfl <;> exact absurd hcblank (by decide)

/-- No two digits that are neighbours in the clean text had a blank between them in the raw text. -/
def KeepsApart (raw : List Char) : Prop :=
  ∀ before x y after, stripped false raw = before ++ x :: y :: after → isDigit x = true →
    isDigit y = true →
      ∃ gap, Joins raw before x gap y after ∧ ∀ c ∈ gap, isBlank c = false

/-- **Digits with a blank between them are kept apart unless an angle bracket hides the blank.** Of a
text that passes the check, cleaning joins digits over a blank exactly if it joins digits over a gap
with both a blank and an angle bracket. -/
theorem keepsApart_iff (h : checkSpaces raw = .ok ()) :
    KeepsApart raw ↔
      ∀ before x gap y after, Joins raw before x gap y after → isDigit x = true →
        isDigit y = true → (∃ c ∈ gap, c = '<' ∨ c = '>') → ∀ c ∈ gap, isBlank c = false := by
  constructor
  · intro hkeeps before x gap y after hjoins hx hy _
    obtain ⟨gap', hjoins', hblank⟩ := hkeeps before x y after (exists_joins_iff.1 ⟨gap, hjoins⟩) hx hy
    exact hjoins.gap_eq hjoins' ▸ hblank
  · intro hangles before x y after hclean hx hy
    obtain ⟨gap, hjoins⟩ := exists_joins_iff.2 hclean
    refine ⟨gap, hjoins, fun c hc => ?_⟩
    by_contra hblank
    -- The check has seen to it that this gap has an angle bracket.
    have hangle := checkSpaces_eq_ok_iff.1 h before x gap y after hjoins hx hy
      ⟨c, hc, by simpa using hblank⟩
    exact hblank (hangles before x gap y after hjoins hx hy hangle c hc)

/-- Digits and a blank outside of ASCII, with an angle bracket behind the blank. -/
theorem keepsApart_iff_wide :
    let raw : List Char := ['\u0663', '\u3000', '>', '\u0664']
    checkSpaces raw = .ok () ∧ ¬ KeepsApart raw := by
  intro raw
  have hok : checkSpaces raw = .ok () := by decide
  refine ⟨hok, fun hkeeps => ?_⟩
  have hjoins : Joins raw [] '\u0663' ['\u3000', '>'] '\u0664' [] :=
    ⟨[], [], rfl, rfl, by decide, by decide, by decide, rfl⟩
  have hblank := (keepsApart_iff hok).1 hkeeps _ _ _ _ _ hjoins (by decide) (by decide)
    ⟨'>', by decide, .inr rfl⟩ '\u3000' (by decide)
  exact absurd hblank (by decide)

/-- An angle bracket behind the blank, and one and two become twelve. -/
theorem not_keepsApart :
    let raw : List Char := ['1', ' ', '<', '2']
    checkSpaces raw = .ok () ∧ stripped false raw = ['1', '2'] ∧ ¬ KeepsApart raw := by
  intro raw
  have hok : checkSpaces raw = .ok () := by decide
  refine ⟨hok, by decide, fun hkeeps => ?_⟩
  obtain ⟨gap, hgap, hblank⟩ := hkeeps [] '1' '2' [] (by decide) (by decide) (by decide)
  have hjoins : Joins raw [] '1' [' ', '<'] '2' [] :=
    ⟨[], [], rfl, rfl, by decide, by decide, by decide, rfl⟩
  rw [hgap.gap_eq hjoins] at hblank
  exact absurd (hblank ' ' (by decide)) (by decide)

end Cleaning

end SearchBox
