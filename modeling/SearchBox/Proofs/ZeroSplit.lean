import SearchBox.Proofs.Pieces
import SearchBox.Proofs.Span

/-!
# Zero taken out of a list of integers

A list of integers can be read so that no interval has integers on both sides of zero: such an
interval is cut into its halves, and zero is left out. Each span of the plain reading turns into the
spans of the other one by itself (`Span.withoutZero`), so a step from span to span (`ofPiece_true`)
carries over to the whole text (`decompose_true`). The two readings fail alike, and of the integers
that are denoted only zero can get lost (`decompose_splits_zero`).
-/

namespace SearchBox

open Text

namespace Span

/-! ### One span -/

/-- The span is an interval with integers on both sides of zero. -/
def Straddles : Span → Prop
  | single _ => False
  | interval low high => low < 0 ∧ 0 < high

/-- If the span is an interval, its ends differ. -/
def IsProper : Span → Prop
  | single _ => True
  | interval low high => low ≠ high

/-- Every integer of the first span is less than every integer of the second. -/
def Before (s t : Span) : Prop :=
  ∀ m n : Int, s.contains m = true → t.contains n = true → m < n

/-- The span, or its two halves without zero. -/
def withoutZero : Span → List Span
  | single n => [single n]
  | interval low high =>
    if low < 0 ∧ 0 < high then [closed low (-1), closed 1 high] else [interval low high]

theorem isProper_closed (low high : Int) : (closed low high).IsProper := by
  unfold closed
  split
  · trivial
  · rename_i hne
    exact hne

theorem not_straddles_closed {low high : Int} (h : ¬ (low < 0 ∧ 0 < high)) :
    ¬ (closed low high).Straddles := by
  unfold closed
  split
  · exact not_false
  · exact h

/-- The two halves of a span, or the span itself if it has no halves. -/
theorem withoutZero_cases (s : Span) :
    (∃ low high, s = interval low high ∧ low < 0 ∧ 0 < high ∧
      s.withoutZero = [closed low (-1), closed 1 high]) ∨
    (¬ s.Straddles ∧ s.withoutZero = [s]) := by
  cases s with
  | single n => exact .inr ⟨not_false, rfl⟩
  | interval low high =>
    by_cases h : low < 0 ∧ 0 < high
    · exact .inl ⟨low, high, rfl, h.1, h.2, if_pos h⟩
    · exact .inr ⟨h, if_neg h⟩

variable {s t : Span} {n : Int}

theorem not_straddles_of_mem_withoutZero (ht : t ∈ s.withoutZero) : ¬ t.Straddles := by
  rcases s.withoutZero_cases with ⟨low, high, rfl, hlow, hhigh, heq⟩ | ⟨hs, heq⟩
  · rw [heq, List.mem_pair] at ht
    rcases ht with rfl | rfl
    · exact not_straddles_closed (by omega)
    · exact not_straddles_closed (by omega)
  · rw [heq, List.mem_singleton] at ht
    exact ht ▸ hs

theorem isProper_of_mem_withoutZero (hs : s.IsProper) (ht : t ∈ s.withoutZero) : t.IsProper := by
  rcases s.withoutZero_cases with ⟨low, high, rfl, -, -, heq⟩ | ⟨-, heq⟩
  · rw [heq, List.mem_pair] at ht
    rcases ht with rfl | rfl
    · exact isProper_closed low (-1)
    · exact isProper_closed 1 high
  · rw [heq, List.mem_singleton] at ht
    exact ht ▸ hs

/-- A span loses zero when it has integers on both sides of it, and nothing else. -/
theorem exists_mem_withoutZero_contains :
    (∃ t ∈ s.withoutZero, t.contains n = true) ↔
      s.contains n = true ∧ (n = 0 → ¬ s.Straddles) := by
  rcases s.withoutZero_cases with ⟨low, high, rfl, hlow, hhigh, heq⟩ | ⟨hs, heq⟩
  · have hhalves : (∃ t ∈ (interval low high).withoutZero, t.contains n = true) ↔
        (low ≤ n ∧ n ≤ -1) ∨ (1 ≤ n ∧ n ≤ high) := by
      rw [heq]
      simp [contains_closed]
    have hwhole : (interval low high).contains n = true ↔ low ≤ n ∧ n ≤ high := by
      simp [contains]
    have hstraddles : (interval low high).Straddles := ⟨hlow, hhigh⟩
    rw [hhalves, hwhole, imp_not_comm, imp_iff_right hstraddles]
    omega
  · simp [heq, hs]

/-- The halves of a span come in ascending order. -/
theorem pairwise_before_withoutZero (s : Span) : s.withoutZero.Pairwise Before := by
  rcases s.withoutZero_cases with ⟨low, high, -, -, -, heq⟩ | ⟨-, heq⟩
  · rw [heq, List.pairwise_pair]
    intro m n hm hn
    rw [contains_closed] at hm hn
    omega
  · rw [heq]
    exact List.pairwise_singleton Before s

/-! ### One piece -/

theorem between_true (low high : Int) :
    between true low high = (closed low high).withoutZero := by
  by_cases h : low < 0 ∧ 0 < high
  · have hne : low ≠ high := by omega
    simp [between, h, closed, hne, withoutZero]
  · have hwhole : between true low high = [closed low high] := by
      simp only [between, Bool.true_and, Bool.and_eq_true, decide_eq_true_eq, if_neg h]
    rcases (closed low high).withoutZero_cases with ⟨low', high', heq, hlow, hhigh, -⟩ | ⟨-, heq⟩
    · exact absurd (heq ▸ ⟨hlow, hhigh⟩) (not_straddles_closed h)
    · rw [hwhole, heq]

/-- A piece is one span that is a single integer or an interval with different ends, and it is read
without zero by taking zero out of that span. -/
theorem ofPiece_cases (piece : List Char) :
    (∃ e, ofPiece false piece = .error e ∧ ofPiece true piece = .error e) ∨
    ∃ s : Span, s.IsProper ∧ ofPiece false piece = .ok [s] ∧
      ofPiece true piece = .ok s.withoutZero := by
  unfold ofPiece
  cases Token.split? true piece with
  | none =>
    cases Reader.readInteger piece with
    | error e => exact .inl ⟨e, rfl, rfl⟩
    | ok n => exact .inr ⟨single n, trivial, rfl, rfl⟩
  | some s =>
    by_cases hends : (s.low.isEmpty || s.high.isEmpty) = true
    · exact .inl ⟨.rejected hint, by simp [hends], by simp [hends]⟩
    · simp only [hends]
      cases Reader.readInteger s.low with
      | error e => exact .inl ⟨e, rfl, rfl⟩
      | ok low =>
        cases Reader.readInteger s.high with
        | error e => exact .inl ⟨e, rfl, rfl⟩
        | ok high =>
          refine .inr ⟨closed low high, isProper_closed low high, rfl, ?_⟩
          rw [← between_true]
          rfl

theorem ofPiece_true (piece : List Char) :
    ofPiece true piece = (ofPiece false piece).map (List.flatMap withoutZero) := by
  rcases ofPiece_cases piece with ⟨e, hfalse, htrue⟩ | ⟨s, -, hfalse, htrue⟩
  · rw [hfalse, htrue]
    rfl
  · rw [hfalse, htrue]
    exact congrArg Except.ok (List.flatMap_singleton withoutZero s).symm

/-! ### The whole text -/

variable {splitsZero : Bool} {token : List Char} {spans halves : List Span}

/-- **A text is read without zero by taking zero out of each of its spans.** -/
theorem decompose_true (token : List Char) :
    decompose true token = (decompose false token).map (List.flatMap withoutZero) := by
  unfold decompose
  rw [mapM_eq_map_mapM fun piece _ => ofPiece_true piece]
  cases (pieces ',' (erase ' ' token)).mapM (ofPiece false) with
  | error e => rfl
  | ok groups =>
    refine congrArg Except.ok ?_
    rw [List.flatten_eq_flatMap, List.flatten_eq_flatMap, List.flatMap_map, List.flatMap_assoc]
    rfl

theorem isProper_of_mem_decompose (h : decompose false token = .ok spans) (hs : s ∈ spans) :
    s.IsProper := by
  obtain ⟨groups, hgroups, rfl⟩ := map_eq_ok.1 h
  obtain ⟨group, hgroup, hs⟩ := List.mem_flatten.1 hs
  obtain ⟨piece, -, hpiece⟩ := exists_of_mem_mapM hgroups hgroup
  rcases ofPiece_cases piece with ⟨e, herror, -⟩ | ⟨s', hproper, hok, -⟩
  · rw [herror] at hpiece
    cases hpiece
  · rw [hok] at hpiece
    cases hpiece
    rw [List.mem_singleton.1 hs]
    exact hproper

/-- The spans come in the order of the pieces, and those of one piece in ascending order. -/
def InInputOrder (splitsZero : Bool) (token : List Char) (spans : List Span) : Prop :=
  ∃ groups, List.Forall₂ (fun piece group => decompose splitsZero piece = .ok group)
      (pieces ',' token) groups ∧
    (∀ group ∈ groups, group.Pairwise Before) ∧ spans = groups.flatten

/-- A text without a comma is one piece. -/
theorem decompose_of_not_mem {piece : List Char} (h : ',' ∉ piece) :
    decompose splitsZero piece = ofPiece splitsZero (erase ' ' piece) := by
  have hpieces : pieces ',' (erase ' ' piece) = [erase ' ' piece] :=
    pieces_of_not_mem fun hmem => h (List.mem_of_mem_filter hmem)
  rw [decompose, hpieces, List.mapM_cons, List.mapM_nil]
  cases ofPiece splitsZero (erase ' ' piece) with
  | error e => rfl
  | ok group => exact congrArg Except.ok (List.append_nil group)

theorem pairwise_before_of_ofPiece {piece : List Char} {group : List Span}
    (h : ofPiece splitsZero piece = .ok group) : group.Pairwise Before := by
  rcases ofPiece_cases piece with ⟨e, hfalse, htrue⟩ | ⟨s, -, hfalse, htrue⟩
  · cases splitsZero with
    | false => rw [hfalse] at h; cases h
    | true => rw [htrue] at h; cases h
  · cases splitsZero with
    | false =>
      rw [hfalse] at h
      cases h
      exact List.pairwise_singleton Before s
    | true =>
      rw [htrue] at h
      cases h
      exact pairwise_before_withoutZero s

theorem inInputOrder (h : decompose splitsZero token = .ok spans) :
    InInputOrder splitsZero token spans := by
  obtain ⟨groups, hgroups, rfl⟩ := map_eq_ok.1 h
  refine ⟨groups, ?_, fun group hgroup => ?_, rfl⟩
  · have hread := forall₂_of_mapM hgroups
    rw [pieces_erase (by decide), List.forall₂_map_left_iff] at hread
    have hpieces : ∀ p ∈ pieces ',' token, ',' ∉ p := fun p hp => not_mem_of_mem_pieces hp
    refine ((List.forall₂_and_left _ _).2 ⟨hpieces, hread⟩).imp ?_
    rintro p group ⟨hcomma, hp⟩
    rw [decompose_of_not_mem hcomma, hp]
  · obtain ⟨piece, -, hpiece⟩ := exists_of_mem_mapM hgroups hgroup
    exact pairwise_before_of_ofPiece hpiece

/-- **Taking zero out of the intervals takes away nothing else.** Both ways to read a text fail with
the same errors. If they succeed, then no interval without zero has integers on both sides of zero, no
interval of either reading has equal ends, and the spans come in the order of the input. The two
readings denote the same integers, except that zero is lost if all spans around it are intervals with
integers on both sides of it. -/
theorem decompose_splits_zero (token : List Char) :
    (∀ e, decompose true token = .error e ↔ decompose false token = .error e) ∧
    ∀ spans halves, decompose false token = .ok spans → decompose true token = .ok halves →
      (∀ s ∈ halves, ¬ s.Straddles) ∧
      (∀ s ∈ spans ++ halves, s.IsProper) ∧
      (InInputOrder false token spans ∧ InInputOrder true token halves) ∧
      ∀ n, (∃ s ∈ halves, s.contains n = true) ↔
        (∃ s ∈ spans, s.contains n = true) ∧
          (n = 0 → ∃ s ∈ spans, s.contains n = true ∧ ¬ s.Straddles) := by
  constructor
  · intro e
    rw [decompose_true]
    cases decompose false token <;> simp [Except.map]
  · intro spans halves hspans hhalves
    have hflat : halves = spans.flatMap withoutZero := by
      rw [decompose_true, hspans] at hhalves
      exact (Except.ok.inj hhalves).symm
    refine ⟨fun s hs => ?_, fun s hs => ?_, ⟨inInputOrder hspans, inInputOrder hhalves⟩, fun n => ?_⟩
    · obtain ⟨t, -, hs⟩ := List.mem_flatMap.1 (hflat ▸ hs)
      exact not_straddles_of_mem_withoutZero hs
    · rcases List.mem_append.1 hs with hs | hs
      · exact isProper_of_mem_decompose hspans hs
      · obtain ⟨t, ht, hs⟩ := List.mem_flatMap.1 (hflat ▸ hs)
        exact isProper_of_mem_withoutZero (isProper_of_mem_decompose hspans ht) hs
    · -- Span by span: those that straddle zero keep all but zero, the others keep everything.
      have hstep : (∃ s ∈ halves, s.contains n = true) ↔
          ∃ s ∈ spans, s.contains n = true ∧ (n = 0 → ¬ s.Straddles) := by
        simp only [hflat, List.mem_flatMap, ← exists_mem_withoutZero_contains]
        constructor
        · rintro ⟨t, ⟨s, hs, ht⟩, hn⟩
          exact ⟨s, hs, t, ht, hn⟩
        · rintro ⟨s, hs, t, ht, hn⟩
          exact ⟨t, ⟨s, hs, ht⟩, hn⟩
      rw [hstep]
      by_cases hzero : n = 0
      · simp only [hzero, true_implies]
        exact ⟨fun ⟨s, hs, hn, hnot⟩ => ⟨⟨s, hs, hn⟩, s, hs, hn, hnot⟩, fun h => h.2⟩
      · simp [hzero]

/-- Two intervals around zero lose it, next to a reversed interval and one with equal ends; a third
interval that ends at zero keeps it. -/
theorem decompose_splits_zero_touching :
    let lost := "-5-3,3--3,-1-1,7-7".toList
    let kept := "-5-3,0-4".toList
    (decompose false lost =
        .ok [interval (-5) 3, interval 3 (-3), interval (-1) 1, single 7] ∧
      decompose true lost =
        .ok [interval (-5) (-1), interval 1 3, interval 3 (-3), single (-1), single 1, single 7] ∧
      ¬ ∃ s ∈ [interval (-5) (-1), interval 1 3, interval 3 (-3), single (-1), single 1, single 7],
        s.contains 0 = true) ∧
    decompose true kept = .ok [interval (-5) (-1), interval 1 3, interval 0 4] ∧
      ∃ s ∈ [interval (-5) (-1), interval 1 3, interval 0 4], s.contains 0 = true := by
  intro lost kept
  have hlost : decompose false lost =
      .ok [interval (-5) 3, interval 3 (-3), interval (-1) 1, single 7] := rfl
  have hlost' : decompose true lost = .ok [interval (-5) (-1), interval 1 3, interval 3 (-3),
      single (-1), single 1, single 7] := rfl
  have hkept : decompose false kept = .ok [interval (-5) 3, interval 0 4] := rfl
  have hkept' : decompose true kept = .ok [interval (-5) (-1), interval 1 3, interval 0 4] := rfl
  obtain ⟨-, -, -, hdenotes⟩ := (decompose_splits_zero lost).2 _ _ hlost hlost'
  obtain ⟨-, -, -, hdenotes'⟩ := (decompose_splits_zero kept).2 _ _ hkept hkept'
  refine ⟨⟨hlost, hlost', fun hzero => ?_⟩, hkept', ?_⟩
  · obtain ⟨s, hs, hcontains, hnot⟩ := ((hdenotes 0).1 hzero).2 rfl
    simp only [List.mem_cons, List.not_mem_nil, or_false] at hs
    rcases hs with rfl | rfl | rfl | rfl
    · exact hnot ⟨by decide, by decide⟩
    · cases hcontains
    · exact hnot ⟨by decide, by decide⟩
    · cases hcontains
  · have hzero : (interval 0 4).contains 0 = true := rfl
    refine (hdenotes' 0).2 ⟨⟨interval 0 4, by simp, hzero⟩, fun _ => ?_⟩
    exact ⟨interval 0 4, by simp, hzero, fun hstraddles => absurd hstraddles.1 (by decide)⟩

end Span

end SearchBox
