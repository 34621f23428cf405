import Mathlib.Order.Bounds.Basic
import SearchBox.Proofs.Separator
import SearchBox.Proofs.Span
import SearchBox.Proofs.Utf8
import SearchBox.Token.Grammar

/-!
# The offset of a separator

Where a separator may stand can be said about the bytes of a token alone: the sets `dotOffsets` and
`dashOffsets` hold the offsets behind the first character at which two dots, or a dash outside of an
exponent, are found. The search for a separator gives the least member of the first set, and if
there is none, of the second one (`IsPlace`). A split so cuts a token between characters, and the
part before the separator is never empty. All that reads intervals is built on such splits: no
interval is compiled without its lower end.

* `exists_cutDots` and `exists_cutDash` — the search stops in front of every separator.
* `isPlace_split?` — the separator that is found is the one with the least offset.
* `Split.cuts_of_split?` — its ends are boundaries between characters.
* `separator_exact` — the search, and what compiles, decomposes and tells apart by it.
-/

namespace SearchBox.Token

open Text

variable {dashes : Bool} {before cs a b : List Char} {c : Char} {i : Nat}

/-! ### Offsets in bytes -/

/-- The two bytes before the offset are an exponent mark behind a digit or a point. -/
def InExponent (cs : List Char) (i : Nat) : Prop :=
  ∃ j d mark, i = j + 2 ∧ (d.isDigit = true ∨ d = '.') ∧ (mark = 'e' ∨ mark = 'E') ∧
    ByteAt cs j d ∧ ByteAt cs (j + 1) mark

/-- The offsets behind the first character at which two dots stand. -/
def dotOffsets (cs : List Char) : Set Nat :=
  {i | utf8Length (cs.take 1) ≤ i ∧ ByteAt cs i '.' ∧ ByteAt cs (i + 1) '.'}

/-- The offsets behind the first character at which a dash stands outside of an exponent. -/
def dashOffsets (cs : List Char) : Set Nat :=
  {i | utf8Length (cs.take 1) ≤ i ∧ ByteAt cs i '-' ∧ ¬ InExponent cs i}

/-- The offset of a separator and its length. -/
def Split.place (s : Split) : Nat × Nat := (s.offset, s.separator.length)

/-- The place of the separator of a token: two dots win over a dash, and the first place wins. -/
inductive IsPlace (dashes : Bool) (cs : List Char) : Option (Nat × Nat) → Prop
  | dots {i : Nat} (hi : IsLeast (dotOffsets cs) i) : IsPlace dashes cs (some (i, 2))
  | dash {i : Nat} (hdots : dotOffsets cs = ∅) (hdashes : dashes = true)
    (hi : IsLeast (dashOffsets cs) i) : IsPlace dashes cs (some (i, 1))
  | none (hdots : dotOffsets cs = ∅) (hdash : dashes = true → dashOffsets cs = ∅) :
    IsPlace dashes cs none

/-- A token has one place at most. -/
theorem IsPlace.unique {p p' : Option (Nat × Nat)} (h : IsPlace dashes cs p)
    (h' : IsPlace dashes cs p') : p = p' := by
  have hempty {s : Set Nat} {i : Nat} (hi : IsLeast s i) : s ≠ ∅ :=
    Set.nonempty_iff_ne_empty.1 ⟨i, hi.1⟩
  cases h with
  | dots hi =>
    cases h' with
    | dots hi' => rw [hi.unique hi']
    | dash hdots => exact absurd hdots (hempty hi)
    | none hdots => exact absurd hdots (hempty hi)
  | dash hdots hdashes hi =>
    cases h' with
    | dots hi' => exact absurd hdots (hempty hi')
    | dash _ _ hi' => rw [hi.unique hi']
    | none _ hdash => exact absurd (hdash hdashes) (hempty hi)
  | none hdots hdash =>
    cases h' with
    | dots hi' => exact absurd hdots (hempty hi')
    | dash _ hdashes hi' => exact absurd (hdash hdashes) (hempty hi')
    | none => rfl

/-! ### Where the search stops -/

/-- The search for two dots stops at them or before. -/
theorem exists_cutDots (a b : List Char) :
    ∃ a' b', cutDots (a ++ '.' :: '.' :: b) = some (a', b') ∧ a' <+: a := by
  induction a with
  | nil => exact ⟨[], b, rfl, List.prefix_rfl⟩
  | cons c a ih =>
    by_cases hc : c = '.' ∧ (a ++ '.' :: '.' :: b).head? = some '.'
    · obtain ⟨rfl, hhead⟩ := hc
      obtain ⟨rest, hrest⟩ := List.head?_eq_some_iff.1 hhead
      exact ⟨[], rest, by rw [List.cons_append, hrest, cutDots], List.nil_prefix⟩
    · obtain ⟨a', b', hcut, hbegins⟩ := ih
      refine ⟨c :: a', b', ?_, List.cons_prefix_cons.2 ⟨rfl, hbegins⟩⟩
      rw [List.cons_append, cutDots_cons fun hdot hhead => hc ⟨hdot, hhead⟩, hcut]
      rfl

/-- The search for a dash stops at a dash outside of an exponent or before. -/
theorem exists_cutDash (h : endsInExponent (before.reverse ++ a).reverse = false) (b : List Char) :
    ∃ a' b', cutDash before (a ++ '-' :: b) = some (before.reverse ++ a', b') ∧ a' <+: a := by
  induction a generalizing before with
  | nil =>
    refine ⟨[], b, ?_, List.prefix_rfl⟩
    rw [List.append_nil, List.reverse_reverse] at h
    rw [List.nil_append, cutDash_dash h, List.append_nil]
  | cons c a ih =>
    rw [List.cons_append, cutDash]
    split
    · exact ⟨[], a ++ '-' :: b, by rw [List.append_nil], List.nil_prefix⟩
    · rw [List.append_cons, ← List.reverse_cons] at h
      obtain ⟨a', b', hcut, hbegins⟩ := ih h
      refine ⟨c :: a', b', ?_, List.cons_prefix_cons.2 ⟨rfl, hbegins⟩⟩
      rw [hcut, List.reverse_cons, List.append_assoc]
      rfl

/-- The dash at which the search stops is outside of an exponent. -/
theorem endsInExponent_of_cutDash (h : cutDash before cs = some (a, b)) :
    endsInExponent a.reverse = false := by
  induction cs generalizing before with
  | nil => cases h
  | cons c cs ih =>
    rw [cutDash] at h
    split at h
    · rename_i hdash
      cases h
      simpa using (Bool.and_eq_true_iff.1 hdash).2
    · exact ih h

/-! ### The offsets at which parts end -/

theorem toNat_lt_of_exponent (h : c.isDigit = true ∨ c = '.') : c.toNat < 128 := by
  rcases h with h | rfl
  · exact toNat_lt_of_isDigit h
  · decide

theorem endsInExponent_iff : endsInExponent before = true ↔
    ∃ mark d rest, before = mark :: d :: rest ∧ (mark = 'e' ∨ mark = 'E') ∧
      (d.isDigit = true ∨ d = '.') := by
  rcases before with _ | ⟨mark, _ | ⟨d, rest⟩⟩ <;> simp [endsInExponent]

/-- A part in front ends in an exponent mark if and only if the bytes before its end say so. -/
theorem inExponent_iff (a b : List Char) :
    InExponent (a ++ b) (utf8Length a) ↔ endsInExponent a.reverse = true := by
  have hmark {mark : Char} (h : mark = 'e' ∨ mark = 'E') : mark.toNat < 128 := by
    rcases h with rfl | rfl <;> decide
  have hlength {d mark : Char} (x : List Char) (hd : d.isDigit = true ∨ d = '.')
      (hm : mark = 'e' ∨ mark = 'E') : utf8Length (x ++ [d, mark]) = utf8Length x + 2 := by
    simp [utf8Size_of_lt (toNat_lt_of_exponent hd), utf8Size_of_lt (hmark hm)]
  rw [endsInExponent_iff]
  constructor
  · rintro ⟨j, d, mark, hj, hd, hm, hbytes⟩
    obtain ⟨x, y, h, rfl⟩ := (byteAt_succ_iff (toNat_lt_of_exponent hd) (hmark hm)).1 hbytes
    have hpart : a ++ b = (x ++ [d, mark]) ++ y := by rw [h, List.append_assoc]; rfl
    obtain ⟨rfl, -⟩ := append_inj_of_utf8Length hpart (hj.trans (hlength x hd hm).symm)
    exact ⟨mark, d, x.reverse, by simp, hm, hd⟩
  · rintro ⟨mark, d, rest, h, hm, hd⟩
    have ha : a = rest.reverse ++ [d, mark] := by
      rw [← List.reverse_reverse a, h]
      simp
    refine ⟨utf8Length rest.reverse, d, mark, by rw [ha, hlength _ hd hm], hd, hm, ?_⟩
    exact (byteAt_succ_iff (toNat_lt_of_exponent hd) (hmark hm)).2
      ⟨rest.reverse, b, by simp [ha], rfl⟩

/-- A part that reaches behind the first character begins with it. -/
theorem exists_cons_of_le (h : c :: cs = a ++ b)
    (hle : utf8Length ((c :: cs).take 1) ≤ utf8Length a) : ∃ t, a = c :: t ∧ cs = t ++ b := by
  cases a with
  | nil =>
    have hpos := c.utf8Size_pos
    rw [List.take_succ_cons, List.take_zero, utf8Length_cons, utf8Length_nil] at hle
    omega
  | cons d t =>
    cases h
    exact ⟨t, rfl, rfl⟩

theorem take_one_le (c : Char) (cs a : List Char) :
    utf8Length ((c :: cs).take 1) ≤ utf8Length (c :: a) :=
  utf8Length_le_of_prefix (List.cons_prefix_cons.2 ⟨rfl, List.nil_prefix⟩)

theorem mem_dotOffsets : i ∈ dotOffsets (c :: cs) ↔
    ∃ a b, cs = a ++ '.' :: '.' :: b ∧ utf8Length (c :: a) = i := by
  constructor
  · rintro ⟨hle, hbytes⟩
    obtain ⟨x, b, h, rfl⟩ := (byteAt_succ_iff (by decide) (by decide)).1 hbytes
    obtain ⟨a, rfl, rfl⟩ := exists_cons_of_le h hle
    exact ⟨a, b, rfl, rfl⟩
  · rintro ⟨a, b, rfl, rfl⟩
    exact ⟨take_one_le c _ a, (byteAt_succ_iff (by decide) (by decide)).2 ⟨c :: a, b, rfl, rfl⟩⟩

theorem mem_dashOffsets : i ∈ dashOffsets (c :: cs) ↔
    ∃ a b, cs = a ++ '-' :: b ∧ utf8Length (c :: a) = i ∧
      endsInExponent (c :: a).reverse = false := by
  constructor
  · rintro ⟨hle, hbyte, hexponent⟩
    obtain ⟨x, b, h, rfl⟩ := (byteAt_iff (by decide)).1 hbyte
    obtain ⟨a, rfl, rfl⟩ := exists_cons_of_le h hle
    rw [h, inExponent_iff, Bool.not_eq_true] at hexponent
    exact ⟨a, b, rfl, rfl, hexponent⟩
  · rintro ⟨a, b, rfl, rfl, hexponent⟩
    refine ⟨take_one_le c _ a, (byteAt_iff (by decide)).2 ⟨c :: a, b, rfl, rfl⟩, ?_⟩
    rw [← List.cons_append, inExponent_iff, Bool.not_eq_true]
    exact hexponent

/-! ### The least offset -/

theorem isLeast_dotOffsets (h : cutDots cs = some (a, b)) :
    IsLeast (dotOffsets (c :: cs)) (utf8Length (c :: a)) := by
  refine ⟨mem_dotOffsets.2 ⟨a, b, cutDots_eq_some h, rfl⟩, fun i hi => ?_⟩
  obtain ⟨x, y, rfl, rfl⟩ := mem_dotOffsets.1 hi
  obtain ⟨a', b', hcut, hbegins⟩ := exists_cutDots x y
  cases h.symm.trans hcut
  exact utf8Length_le_of_prefix (List.cons_prefix_cons.2 ⟨rfl, hbegins⟩)

theorem dotOffsets_eq_empty (h : cutDots cs = none) : dotOffsets (c :: cs) = ∅ := by
  rw [Set.eq_empty_iff_forall_notMem]
  intro i hi
  obtain ⟨x, y, rfl, -⟩ := mem_dotOffsets.1 hi
  obtain ⟨a', b', hcut, -⟩ := exists_cutDots x y
  cases h.symm.trans hcut

theorem isLeast_dashOffsets (h : cutDash [c] cs = some (a, b)) :
    IsLeast (dashOffsets (c :: cs)) (utf8Length a) := by
  obtain ⟨d, t, rfl⟩ := List.exists_cons_of_ne_nil (cutDash_low_ne_nil h (List.cons_ne_nil c []))
  have htext : c :: cs = d :: t ++ '-' :: b := cutDash_eq_some h
  obtain ⟨rfl, rfl⟩ := List.cons.inj htext
  refine ⟨mem_dashOffsets.2 ⟨t, b, rfl, rfl, endsInExponent_of_cutDash h⟩, fun i hi => ?_⟩
  obtain ⟨x, y, hxy, rfl, hexponent⟩ := mem_dashOffsets.1 hi
  obtain ⟨a', b', hcut, hbegins⟩ := @exists_cutDash [c] x hexponent y
  rw [← hxy] at hcut
  cases h.symm.trans hcut
  exact utf8Length_le_of_prefix (List.cons_prefix_cons.2 ⟨rfl, hbegins⟩)

theorem dashOffsets_eq_empty (h : cutDash [c] cs = none) : dashOffsets (c :: cs) = ∅ := by
  rw [Set.eq_empty_iff_forall_notMem]
  intro i hi
  obtain ⟨x, y, rfl, -, hexponent⟩ := mem_dashOffsets.1 hi
  obtain ⟨a', b', hcut, -⟩ := @exists_cutDash [c] x hexponent y
  cases h.symm.trans hcut

/-- **The separator that is found is the one with the least offset.** -/
theorem isPlace_split? (dashes : Bool) (cs : List Char) :
    IsPlace dashes cs ((split? dashes cs).map Split.place) := by
  cases cs with
  | nil =>
    have hbyte (i : Nat) (c : Char) : ¬ ByteAt [] i c := by simp [ByteAt]
    refine .none ?_ fun _ => ?_
    all_goals
      rw [Set.eq_empty_iff_forall_notMem]
      exact fun i hi => hbyte _ _ hi.2.1
  | cons c cs =>
    rw [split?]
    cases hdots : cutDots cs with
    | some ends => exact .dots (isLeast_dotOffsets hdots)
    | none =>
      cases hdashes : dashes with
      | false => exact .none (dotOffsets_eq_empty hdots) fun h => absurd h Bool.false_ne_true
      | true =>
        rw [if_pos rfl]
        cases hdash : cutDash [c] cs with
        | some ends => exact .dash (dotOffsets_eq_empty hdots) rfl (isLeast_dashOffsets hdash)
        | none => exact .none (dotOffsets_eq_empty hdots) fun _ => dashOffsets_eq_empty hdash

/-- Two dots win over an earlier dash, and an exponent is passed over. -/
example : (split? true "1-2..3".toList).map Split.place = some (3, 2) ∧
    (split? true "1e-5-2".toList).map Split.place = some (4, 1) := by decide

theorem split?_iff_isPlace {place : Option (Nat × Nat)} :
    (split? dashes cs).map Split.place = place ↔ IsPlace dashes cs place := by
  constructor
  · rintro rfl
    exact isPlace_split? dashes cs
  · exact (isPlace_split? dashes cs).unique

/-- A separator is found if and only if one of the places is there. -/
theorem isSome_split?_iff : (split? true cs).isSome = true ↔
    (dotOffsets cs).Nonempty ∨ (dashOffsets cs).Nonempty := by
  have hplace := isPlace_split? true cs
  have hsome : (split? true cs).isSome = ((split? true cs).map Split.place).isSome :=
    (Option.isSome_map ..).symm
  rw [hsome]
  generalize (split? true cs).map Split.place = place at hplace
  cases hplace with
  | dots hi => exact iff_of_true rfl (.inl ⟨_, hi.1⟩)
  | dash _ _ hi => exact iff_of_true rfl (.inr ⟨_, hi.1⟩)
  | none hdots hdash => simp [hdots, hdash rfl]

/-! ### Cutting between characters -/

/-- The parts of the split are the bytes of the text before and behind the separator, both ends of
the separator are boundaries between characters, and there is a part before it. -/
structure Split.Cuts (s : Split) (cs : List Char) : Prop where
  low_ne_nil : s.low ≠ []
  isValid_begin : (⟨s.offset⟩ : String.Pos.Raw).IsValid (String.ofList cs)
  isValid_end :
    (⟨s.offset + s.separator.length⟩ : String.Pos.Raw).IsValid (String.ofList cs)
  utf8_low : utf8 s.low = (utf8 cs).take s.offset
  utf8_high : utf8 s.high = (utf8 cs).drop (s.offset + s.separator.length)

theorem Split.cuts_of_split? {s : Split} (h : split? dashes cs = some s) : s.Cuts cs := by
  have hlength : utf8Length (s.low ++ s.separator.text) = s.offset + s.separator.length := by
    rw [utf8Length_append]
    cases s.separator <;> rfl
  obtain rfl := (text_of_split? h).symm
  constructor
  · exact low_ne_nil_of_split? h
  · rw [List.append_assoc]
    exact isValid_utf8Length s.low _
  · rw [← hlength]
    exact isValid_utf8Length _ s.high
  · rw [List.append_assoc, utf8_append, Split.offset, ← length_utf8, List.take_left]
  · rw [utf8_append, ← hlength, ← length_utf8, List.drop_left]

end SearchBox.Token

namespace SearchBox

open Text Token

/-! ### Lower ends -/

/-- If the constraint is an interval, it has a lower end. -/
def Constraint.HasLowerEnd : Constraint → Prop
  | value _ => True
  | operators o => o.min.isSome = true

/-- Every interval among the constraints has a lower end. -/
def Fragment.HasLowerEnds (f : Fragment) : Prop := ∀ c ∈ f.constraints, c.HasLowerEnd

namespace Range

variable {style : Style} {read : Reader} {key : String} {piece : List Char} {c : Constraint}
  {f : Fragment}

theorem hasLowerEnd_of_ofPiece (h : ofPiece style piece = .ok c) : c.HasLowerEnd := by
  unfold ofPiece at h
  split at h
  · rename_i s hsplit
    have hne : s.low ≠ [] := low_ne_nil_of_split? hsplit
    simp only [intervalOf, boundOf_of_ne_nil _ hne, bind_eq_ok, map_eq_ok] at h
    obtain ⟨_, ⟨low, -, rfl⟩, high, -, rfl⟩ := h
    rfl
  · obtain ⟨v, -, rfl⟩ := map_eq_ok.1 h
    trivial

theorem hasLowerEnd_of_ofRationalPiece (h : ofRationalPiece read piece = .ok c) :
    c.HasLowerEnd := by
  unfold ofRationalPiece at h
  split at h
  · obtain ⟨v, -, rfl⟩ := map_eq_ok.1 h
    trivial
  · exact hasLowerEnd_of_ofPiece h

theorem hasLowerEnds_of_ofPieces {compile : List Char → Except Error Constraint}
    {ps : List (List Char)} (hcompile : ∀ piece c, compile piece = .ok c → c.HasLowerEnd)
    (h : ofPieces compile key ps = .ok f) : f.HasLowerEnds := by
  rw [ofPieces_eq_map] at h
  obtain ⟨cs, hcs, rfl⟩ := map_eq_ok.1 h
  rw [Fragment.HasLowerEnds, constraints_fragmentOf]
  intro c hc
  obtain ⟨piece, -, hpiece⟩ := exists_of_mem_mapM hcs hc
  exact hcompile piece c hpiece

end Range

namespace Span

variable {splitsZero : Bool} {piece token : List Char}

/-- A piece is refused as an interval without an end only if its upper end is missing. -/
theorem ofPiece_eq_hint_iff : ofPiece splitsZero piece = .error (.rejected hint) ↔
    ∃ s, split? true piece = some s ∧ s.high = [] := by
  have hread (cs : List Char) : FailsOnly (· ≠ .rejected hint) (Reader.readInteger cs) := by
    rintro e he rfl
    cases (Reader.orInvalid_eq_error.1 he).2
  unfold ofPiece
  cases hsplit : split? true piece with
  | none =>
    have hsingle := (hread piece).map fun n => [single n]
    simpa using fun h => hsingle _ h rfl
  | some s =>
    have hlow : s.low.isEmpty = false := by simpa using low_ne_nil_of_split? hsplit
    simp only [hlow, Bool.false_or, List.isEmpty_iff, Option.some.injEq, exists_eq_left']
    split
    · rename_i hhigh
      exact iff_of_true rfl hhigh
    · rename_i hhigh
      have hends := (hread s.low).bind fun low =>
        (hread s.high).map fun high => between splitsZero low high
      exact iff_of_false (fun h => hends _ h rfl) hhigh

theorem decompose_eq_hint_iff : decompose splitsZero token = .error (.rejected hint) ↔
    ∃ before piece after, pieces ',' (erase ' ' token) = before ++ piece :: after ∧
      (∀ p ∈ before, ∃ spans, ofPiece splitsZero p = .ok spans) ∧
      ∃ s, split? true piece = some s ∧ s.high = [] := by
  rw [decompose, map_eq_error, mapM_eq_error]
  simp only [ofPiece_eq_hint_iff]

end Span

/-! ### Shapes -/

theorem Token.shape_eq_interval_iff {cs : List Char} : shape cs = .interval ↔
    enclosed? cs = none ∧ ',' ∉ cs ∧
      ((dotOffsets cs).Nonempty ∨ (dashOffsets cs).Nonempty) := by
  rw [← isSome_split?_iff, ← Option.not_isSome_iff_eq_none, ← List.contains_iff_mem]
  unfold shape
  cases (enclosed? cs).isSome <;> cases cs.contains ',' <;> cases (split? true cs).isSome <;>
    decide

/-! ### The whole search -/

/-- **The search for a separator finds the least offset, between characters.** It stops at the
first two dots behind the first character, or else, where dashes count, at the first dash there that
is not in an exponent. The parts that it gives are the bytes before and behind the separator, both
ends of the separator lie between characters, and the part before it is not empty. So no interval is
compiled without a lower end, a list of integers is refused as open only for an upper end that is
missing, and a token is an interval if and only if it has an offset of a separator. -/
theorem separator_exact (dashes : Bool) (cs : List Char) :
    (∀ place, (split? dashes cs).map Split.place = place ↔ IsPlace dashes cs place) ∧
    (∀ s, split? dashes cs = some s → s.Cuts cs) ∧
    (∀ style key f, Range.compile style key cs = .ok f → f.HasLowerEnds) ∧
    (∀ read key f, Range.compileRational read key cs = .ok f → f.HasLowerEnds) ∧
    (∀ splitsZero, Span.decompose splitsZero cs = .error (.rejected Span.hint) ↔
      ∃ before piece after, pieces ',' (erase ' ' cs) = before ++ piece :: after ∧
        (∀ p ∈ before, ∃ spans, Span.ofPiece splitsZero p = .ok spans) ∧
        ∃ s, split? true piece = some s ∧ s.high = []) ∧
    (shape cs = .interval ↔ enclosed? cs = none ∧ ',' ∉ cs ∧
      ((dotOffsets cs).Nonempty ∨ (dashOffsets cs).Nonempty)) := by
  refine ⟨fun place => split?_iff_isPlace, fun s h => Split.cuts_of_split? h, ?_, ?_,
    fun splitsZero => Span.decompose_eq_hint_iff, shape_eq_interval_iff⟩
  · intro style key f h
    exact Range.hasLowerEnds_of_ofPieces (fun _ _ => Range.hasLowerEnd_of_ofPiece) h
  · intro read key f h
    exact Range.hasLowerEnds_of_ofPieces (fun _ _ => Range.hasLowerEnd_of_ofRationalPiece) h

/-- A text that begins with a character of two bytes and has an exponent before its separator, and
two lists with an open interval. -/
theorem separator_exact_accented :
    IsPlace true "é1e-5-2".toList (some (6, 1)) ∧
    Split.Cuts ⟨"é1e-5".toList, .dash, "2".toList⟩ "é1e-5-2".toList ∧
    (Fragment.field "k" (.range (some (.string "é1e-5")) (some (.string "2")))).HasLowerEnds ∧
    (Fragment.anyOf [.single "q" (.range (some (.string "1/2")) none),
      .single "q" (.value (.string "3"))]).HasLowerEnds ∧
    Span.decompose false "7, 5-".toList = .error (.rejected Span.hint) ∧
    ((dotOffsets "é1e-5-2".toList).Nonempty ∨ (dashOffsets "é1e-5-2".toList).Nonempty) := by
  have hsplit : split? true "é1e-5-2".toList = some ⟨"é1e-5".toList, .dash, "2".toList⟩ := rfl
  have hcompile : Range.compile (.plain Reader.text) "k" "é1e-5-2".toList =
      .ok (.field "k" (.range (some (.string "é1e-5")) (some (.string "2")))) := rfl
  have hcompile' : Range.compileRational Reader.text "q" "1/2-, 3".toList =
      .ok (.anyOf [.single "q" (.range (some (.string "1/2")) none),
        .single "q" (.value (.string "3"))]) := rfl
  obtain ⟨hplace, hcuts, hends, -, -, hshape⟩ := separator_exact true "é1e-5-2".toList
  obtain ⟨-, -, -, hends', -⟩ := separator_exact true "1/2-, 3".toList
  obtain ⟨-, -, -, -, hopen, -⟩ := separator_exact true "7, 5-".toList
  refine ⟨(hplace _).1 rfl, hcuts _ hsplit, hends _ _ _ hcompile, hends' _ _ _ hcompile',
    (hopen false).2 ?_, ?_⟩
  · have hbefore : ∀ p ∈ ["7".toList], ∃ spans, Span.ofPiece false p = .ok spans :=
      List.forall_mem_singleton.2 ⟨[.single 7], rfl⟩
    exact ⟨["7".toList], "5-".toList, [], rfl, hbefore, _, rfl, rfl⟩
  · exact (hshape.1 (by decide)).2.2

end SearchBox
