import Mathlib.Computability.Language
import SearchBox.Pattern.Basic

/-!
# The language of a pattern

`Pattern.language` is what a pattern stands for, apart from any search. The search lists what is
left of a text behind each beginning in the language (`mem_rests`), so a text that `matchesWhole` a
pattern is in its language (`mem_language_of_matchesWhole`). The converse needs that the preferred
beginning is the longest one, which fails for `a|ab` and the text `ab`.

It holds for the patterns that are `IsDeterministic`: the next character always says how to go on.
`begins` and `continues` are the characters that a match can begin with and be extended with; they
must not meet where a pattern is followed by another one, by a second branch or by itself. Then the
leftovers come in order of length (`rests_ascending`), and `matchesWhole` is membership in the
language (`matchesWhole_iff`).
-/

namespace SearchBox.Pattern

open scoped Computability

variable {p q : Pattern} {c d : Char} {s t cs m₁ m₂ rest : List Char}

/-! ### The language -/

/-- The texts that a pattern stands for. -/
def language : Pattern → Language Char
  | empty => 1
  | one k => {cs | ∃ c, k.holds c = true ∧ cs = [c]}
  | sequence p q => p.language * q.language
  | choice p q => p.language + q.language
  | many p => p.language∗

@[simp] theorem mem_language_empty : s ∈ empty.language ↔ s = [] := Iff.rfl

@[simp] theorem mem_language_one {k : CharClass} :
    s ∈ (one k).language ↔ ∃ c, k.holds c = true ∧ s = [c] := Iff.rfl

@[simp] theorem mem_language_sequence :
    s ∈ (sequence p q).language ↔ ∃ u ∈ p.language, ∃ v ∈ q.language, u ++ v = s :=
  Language.mem_mul

@[simp] theorem mem_language_choice :
    s ∈ (choice p q).language ↔ s ∈ p.language ∨ s ∈ q.language := Iff.rfl

@[simp] theorem mem_language_many : s ∈ (many p).language ↔ s ∈ p.language∗ := Iff.rfl

/-- One more repetition in front. -/
theorem append_mem_kstar {L : Language Char} (hs : s ∈ L) (ht : t ∈ L∗) : s ++ t ∈ L∗ := by
  obtain ⟨S, rfl, hS⟩ := Language.mem_kstar.1 ht
  rw [← List.flatten_cons]
  exact Language.join_mem_kstar (List.forall_mem_cons.2 ⟨hs, hS⟩)

/-- A text of repetitions is empty, or has a first repetition that takes something. -/
theorem kstar_cases {L : Language Char} (h : s ∈ L∗) :
    s = [] ∨ ∃ c u t, c :: u ∈ L ∧ t ∈ L∗ ∧ s = c :: u ++ t := by
  rw [Language.mem_kstar_iff_exists_nonempty] at h
  obtain ⟨S, rfl, hS⟩ := h
  cases S with
  | nil => exact .inl rfl
  | cons y S =>
    obtain ⟨⟨hy, hne⟩, hrest⟩ := List.forall_mem_cons.1 hS
    obtain ⟨c, u, rfl⟩ := List.exists_cons_of_ne_nil hne
    exact .inr ⟨c, u, S.flatten, hy, Language.join_mem_kstar fun z hz => (hrest z hz).1,
      List.flatten_cons⟩

/-! ### What the search lists -/

/-- Repetitions of a step are behind the beginnings in the closure of what the step takes. -/
theorem mem_repeated {L : Language Char} {step : List Char → List (List Char)}
    (hstep : ∀ cs rest, rest ∈ step cs ↔ ∃ s ∈ L, cs = s ++ rest) {fuel : Nat}
    (hfuel : cs.length ≤ fuel) :
    rest ∈ repeated step fuel cs ↔ ∃ s ∈ L∗, cs = s ++ rest := by
  induction fuel generalizing cs with
  | zero =>
    obtain rfl : cs = [] := List.eq_nil_of_length_eq_zero (Nat.le_zero.1 hfuel)
    simp only [repeated, List.mem_singleton, List.nil_eq_append_iff]
    constructor
    · rintro rfl
      exact ⟨[], Language.nil_mem_kstar L, rfl, rfl⟩
    · rintro ⟨s, -, -, rfl⟩
      rfl
  | succ fuel ih =>
    simp only [repeated, List.mem_append, List.mem_flatMap, List.mem_filter, decide_eq_true_eq,
      List.mem_singleton]
    constructor
    · rintro (⟨mid, ⟨hmid, hlt⟩, hrest⟩ | rfl)
      · obtain ⟨u, hu, rfl⟩ := (hstep _ _).1 hmid
        obtain ⟨v, hv, rfl⟩ := (ih (by omega)).1 hrest
        exact ⟨u ++ v, append_mem_kstar hu hv, (List.append_assoc u v rest).symm⟩
      · exact ⟨[], Language.nil_mem_kstar L, rfl⟩
    · rintro ⟨s, hs, rfl⟩
      rcases kstar_cases hs with rfl | ⟨c, u, t, hu, ht, rfl⟩
      · exact .inr rfl
      · have hlt : (t ++ rest).length < (c :: u ++ t ++ rest).length := by
          simp only [List.length_append, List.length_cons]
          omega
        have hmid : t ++ rest ∈ step (c :: u ++ t ++ rest) :=
          (hstep _ _).2 ⟨c :: u, hu, List.append_assoc _ _ _⟩
        exact .inl ⟨t ++ rest, ⟨hmid, hlt⟩, (ih (by omega)).2 ⟨t, ht, rfl⟩⟩

/-- The search lists what is left behind each beginning in the language. -/
theorem mem_rests : rest ∈ p.rests cs ↔ ∃ s ∈ p.language, cs = s ++ rest := by
  induction p generalizing cs rest with
  | empty => simp [eq_comm]
  | one k =>
    cases cs with
    | nil => simp [rests]
    | cons c cs =>
      simp only [rests, mem_language_one]
      split
      · rename_i hk
        constructor
        · intro h
          obtain rfl := List.mem_singleton.1 h
          exact ⟨[c], ⟨c, hk, rfl⟩, rfl⟩
        · rintro ⟨_, ⟨d, -, rfl⟩, heq⟩
          cases heq
          exact .head _
      · rename_i hk
        constructor
        · intro h
          cases h
        · rintro ⟨_, ⟨d, hd, rfl⟩, heq⟩
          cases heq
          exact absurd hd hk
  | sequence p q ihp ihq =>
    simp only [rests_sequence, List.mem_flatMap, ihp, ihq, mem_language_sequence]
    constructor
    · rintro ⟨mid, ⟨u, hu, rfl⟩, v, hv, rfl⟩
      exact ⟨u ++ v, ⟨u, hu, v, hv, rfl⟩, (List.append_assoc u v rest).symm⟩
    · rintro ⟨s, ⟨u, hu, v, hv, rfl⟩, rfl⟩
      exact ⟨v ++ rest, ⟨u, hu, List.append_assoc u v rest⟩, v, hv, rfl⟩
  | choice p q ihp ihq =>
    simp only [rests_choice, List.mem_append, ihp, ihq, mem_language_choice, or_and_right,
      exists_or]
  | many p ih =>
    rw [rests]
    exact mem_repeated (fun _ _ => ih) le_rfl

/-- A text that a pattern matches as a whole is in its language. -/
theorem mem_language_of_matchesWhole (h : p.matchesWhole cs = true) : cs ∈ p.language := by
  unfold matchesWhole at h
  split at h
  · rename_i hrests
    obtain ⟨s, hs, hcs⟩ := mem_rests.1 (hrests ▸ List.mem_cons_self : [] ∈ p.rests cs)
    rwa [hcs, List.append_nil]
  · cases h

/-! ### The next character -/

/-- The empty text is in the language. -/
def nullable : Pattern → Bool
  | empty => true
  | one _ => false
  | sequence p q => p.nullable && q.nullable
  | choice p q => p.nullable || q.nullable
  | many _ => true

/-- A text in the language may begin with the character. -/
def begins : Pattern → Char → Prop
  | empty, _ => False
  | one k, c => k.holds c = true
  | sequence p q, c => p.begins c ∨ p.nullable = true ∧ q.begins c
  | choice p q, c => p.begins c ∨ q.begins c
  | many p, c => p.begins c

/-- A text in the language may go on with the character and stay in the language. -/
def continues : Pattern → Char → Prop
  | empty, _ => False
  | one _, _ => False
  | sequence p q, c => q.continues c ∨ q.nullable = true ∧ p.continues c
  | choice p q, c => p.continues c ∨ q.continues c ∨ q.nullable = true ∧ p.begins c
  | many p, c => p.continues c ∨ p.begins c

/-- The next character decides: whether a part of a sequence goes on or the next part begins, which
branch of a choice is taken, and whether a repetition goes on or the next one begins. -/
def IsDeterministic : Pattern → Prop
  | empty => True
  | one _ => True
  | sequence p q => p.IsDeterministic ∧ q.IsDeterministic ∧ ∀ c, p.continues c → ¬ q.begins c
  | choice p q =>
    p.IsDeterministic ∧ q.IsDeterministic ∧ p.nullable = false ∧ ∀ c, p.begins c → ¬ q.begins c
  | many p => p.IsDeterministic ∧ ∀ c, p.continues c → ¬ p.begins c

theorem nullable_eq_true_iff : p.nullable = true ↔ [] ∈ p.language := by
  induction p with
  | empty => simp [nullable]
  | one k => simp [nullable]
  | sequence p q ihp ihq => simp [nullable, ihp, ihq, and_comm]
  | choice p q ihp ihq => simp [nullable, ihp, ihq]
  | many p => simp [nullable, Language.nil_mem_kstar]

theorem begins_of_mem (h : c :: t ∈ p.language) : p.begins c := by
  induction p generalizing t with
  | empty => cases h
  | one k =>
    obtain ⟨d, hd, heq⟩ := h
    cases heq
    exact hd
  | sequence p q ihp ihq =>
    obtain ⟨u, hu, v, hv, huv⟩ := mem_language_sequence.1 h
    rcases u with _ | ⟨d, u⟩
    · rw [List.nil_append] at huv
      exact .inr ⟨nullable_eq_true_iff.2 hu, ihq (huv ▸ hv)⟩
    · cases huv
      exact .inl (ihp hu)
  | choice p q ihp ihq => exact h.imp ihp ihq
  | many p ih =>
    rcases kstar_cases h with heq | ⟨d, u, v, hu, -, heq⟩
    · cases heq
    · cases heq
      exact ih hu

/-- Where what goes on a first text cannot begin a second one, there is one way to cut a text in
two: if the second text is extended, the cut stays, or the second text was empty. -/
theorem append_extended {L M : Language Char} {P : Char → Prop} {u v u' v' : List Char}
    (hL : ∀ s d t, s ∈ L → s ++ d :: t ∈ L → P d) (hM : ∀ d t, d :: t ∈ M → ¬ P d)
    (hu : u ∈ L) (hv : v ∈ M) (hu' : u' ∈ L) (hv' : v' ∈ M) (h : u ++ (v ++ c :: t) = u' ++ v') :
    u' = u ∧ v' = v ++ c :: t ∨ v = [] ∧ P c := by
  rcases List.append_eq_append_iff.1 h with ⟨w, rfl, hw⟩ | ⟨w, rfl, rfl⟩
  · -- the first text got longer by `w`, which begins what was the second text
    rcases w with _ | ⟨d, w⟩
    · exact .inl ⟨List.append_nil u, by rw [hw, List.nil_append]⟩
    · have hd : P d := hL u d w hu hu'
      rcases v with _ | ⟨e, v⟩
      · obtain ⟨rfl, -⟩ := List.cons.inj hw
        exact .inr ⟨rfl, hd⟩
      · obtain ⟨rfl, -⟩ := List.cons.inj hw
        exact absurd hd (hM _ v hv)
  · -- the first text got shorter by `w`, which begins the new second text
    rcases w with _ | ⟨d, w⟩
    · exact .inl ⟨(List.append_nil u').symm, rfl⟩
    · exact absurd (hL u' d w hu' hu) (hM d _ hv')

/-- What goes on a text of repetitions goes on the last of them, or begins one more. -/
theorem kstar_extended {L : Language Char} {P : Char → Prop}
    (hL : ∀ s d t, s ∈ L → s ++ d :: t ∈ L → P d) (hP : ∀ d t, d :: t ∈ L → ¬ P d)
    (hs : s ∈ L∗) (hst : s ++ c :: t ∈ L∗) : P c ∨ ∃ u, c :: u ∈ L := by
  have hstar : ∀ d t, d :: t ∈ L∗ → ¬ P d := by
    intro d t hd
    rcases kstar_cases hd with heq | ⟨e, u, v, hu, -, heq⟩
    · cases heq
    · cases heq
      exact hP _ u hu
  rw [Language.mem_kstar_iff_exists_nonempty] at hs
  obtain ⟨S, rfl, hS⟩ := hs
  induction S with
  | nil =>
    rcases kstar_cases hst with heq | ⟨d, u, v, hu, -, heq⟩
    · cases heq
    · cases heq
      exact .inr ⟨u, hu⟩
  | cons y S ih =>
    obtain ⟨⟨hy, -⟩, hrest⟩ := List.forall_mem_cons.1 hS
    have hflat : S.flatten ∈ L∗ := Language.join_mem_kstar fun z hz => (hrest z hz).1
    rw [List.flatten_cons, List.append_assoc] at hst
    rcases kstar_cases hst with heq | ⟨d, u, v, hu, hv, heq⟩
    · simp at heq
    · rcases append_extended hL hstar hy hflat hu hv heq with ⟨-, rfl⟩ | ⟨-, hc⟩
      · exact ih hrest hv
      · exact .inl hc

theorem continues_of_mem (hp : p.IsDeterministic) (hs : s ∈ p.language)
    (hst : s ++ c :: t ∈ p.language) : p.continues c := by
  induction p generalizing s t c with
  | empty =>
    obtain rfl := mem_language_empty.1 hs
    cases hst
  | one k =>
    obtain ⟨d, -, rfl⟩ := hs
    obtain ⟨e, -, heq⟩ := hst
    cases heq
  | sequence p q ihp ihq =>
    obtain ⟨hdetp, hdetq, hdisjoint⟩ := hp
    obtain ⟨u, hu, v, hv, rfl⟩ := mem_language_sequence.1 hs
    obtain ⟨u', hu', v', hv', heq⟩ := mem_language_sequence.1 hst
    rcases append_extended (fun _ _ _ => ihp hdetp)
        (fun d t hd hc => hdisjoint d hc (begins_of_mem hd)) hu hv hu' hv'
        ((List.append_assoc u v _).symm.trans heq.symm) with ⟨-, rfl⟩ | ⟨rfl, hc⟩
    · exact .inl (ihq hdetq hv hv')
    · exact .inr ⟨nullable_eq_true_iff.2 hv, hc⟩
  | choice p q ihp ihq =>
    obtain ⟨hdetp, hdetq, hnull, hdisjoint⟩ := hp
    rcases hs with hs | hs <;> rcases hst with hst | hst
    · exact .inl (ihp hdetp hs hst)
    · -- a first character would begin both branches
      rcases s with _ | ⟨d, s⟩
      · rw [nullable_eq_true_iff.2 hs] at hnull
        cases hnull
      · exact absurd (begins_of_mem hst) (hdisjoint d (begins_of_mem hs))
    · rcases s with _ | ⟨d, s⟩
      · exact .inr (.inr ⟨nullable_eq_true_iff.2 hs, begins_of_mem hst⟩)
      · exact absurd (begins_of_mem hs) (hdisjoint d (begins_of_mem hst))
    · exact .inr (.inl (ihq hdetq hs hst))
  | many p ih =>
    obtain ⟨hdet, hdisjoint⟩ := hp
    rcases kstar_extended (fun _ _ _ => ih hdet)
        (fun d t hd hc => hdisjoint d hc (begins_of_mem hd)) hs hst with hc | ⟨u, hu⟩
    · exact .inl hc
    · exact .inr (begins_of_mem hu)

/-! ### The order of preference -/

theorem length_le_of_mem_rests (h : rest ∈ p.rests cs) : rest.length ≤ cs.length := by
  obtain ⟨s, -, rfl⟩ := mem_rests.1 h
  simp

/-- The longer of two leftovers begins with a character that goes on the match before it. -/
theorem exists_continues (hp : p.IsDeterministic) (h₁ : m₁ ∈ p.rests cs) (h₂ : m₂ ∈ p.rests cs)
    (hlt : m₁.length < m₂.length) : ∃ c t, m₂ = c :: t ∧ p.continues c := by
  obtain ⟨s₁, hs₁, rfl⟩ := mem_rests.1 h₁
  obtain ⟨s₂, hs₂, heq⟩ := mem_rests.1 h₂
  rcases List.append_eq_append_iff.1 heq with ⟨w, rfl, rfl⟩ | ⟨w, rfl, rfl⟩
  · rw [List.length_append] at hlt
    omega
  · rcases w with _ | ⟨c, w⟩
    · exact absurd hlt (lt_irrefl _)
    · exact ⟨c, w ++ m₁, rfl, continues_of_mem hp hs₂ hs₁⟩

/-- Leftovers of a second step stay in order of length, if the second step takes nothing of the
longer ones of the first. -/
theorem flatMap_ascending {ms : List (List Char)} {f : List Char → List (List Char)}
    (hms : ms.Pairwise (·.length < ·.length)) (hf : ∀ m ∈ ms, (f m).Pairwise (·.length < ·.length))
    (hle : ∀ m ∈ ms, ∀ r ∈ f m, r.length ≤ m.length)
    (hkeep : ∀ m₁ ∈ ms, ∀ m₂ ∈ ms, m₁.length < m₂.length → ∀ r ∈ f m₂, r = m₂) :
    (ms.flatMap f).Pairwise (·.length < ·.length) := by
  refine List.pairwise_flatMap.2 ⟨hf, hms.imp_of_mem fun {m₁ m₂} h₁ h₂ hlt r₁ hr₁ r₂ hr₂ => ?_⟩
  have heq : r₂ = m₂ := hkeep m₁ h₁ m₂ h₂ hlt r₂ hr₂
  have hle₁ : r₁.length ≤ m₁.length := hle m₁ h₁ r₁ hr₁
  rw [heq]
  omega

/-- A pattern that cannot begin with the first character takes nothing. -/
theorem eq_of_not_begins (hc : ¬ q.begins c) (hs : s ∈ q.language) (h : c :: t = s ++ rest) :
    rest = c :: t := by
  rcases s with _ | ⟨d, s⟩
  · exact h.symm
  · cases h
    exact absurd (begins_of_mem hs) hc

/-- The preferred leftover of repetitions is the shortest one, and the others follow in order. -/
theorem repeated_ascending (hp : p.IsDeterministic) (hdisjoint : ∀ c, p.continues c → ¬ p.begins c)
    (hrests : ∀ cs, (p.rests cs).Pairwise (·.length < ·.length)) {fuel : Nat}
    (hfuel : cs.length ≤ fuel) : (repeated p.rests fuel cs).Pairwise (·.length < ·.length) := by
  induction fuel generalizing cs with
  | zero => exact List.pairwise_singleton _ _
  | succ fuel ih =>
    have hmid : ∀ m ∈ (p.rests cs).filter (·.length < cs.length),
        m ∈ p.rests cs ∧ m.length < cs.length := by
      intro m hm
      simpa only [List.mem_filter, decide_eq_true_eq] using hm
    have hmem : ∀ m ∈ (p.rests cs).filter (·.length < cs.length), ∀ r ∈ repeated p.rests fuel m,
        ∃ s ∈ (many p).language, m = s ++ r := by
      intro m hm r hr
      have hlt := (hmid m hm).2
      exact (mem_repeated (fun _ _ => mem_rests) (by omega)).1 hr
    have hle : ∀ m ∈ (p.rests cs).filter (·.length < cs.length), ∀ r ∈ repeated p.rests fuel m,
        r.length ≤ m.length := by
      intro m hm r hr
      obtain ⟨s, -, rfl⟩ := hmem m hm r hr
      simp
    refine List.pairwise_append.2 ⟨?_, List.pairwise_singleton _ _, ?_⟩
    · refine flatMap_ascending ((hrests cs).sublist List.filter_sublist) ?_ hle ?_
      · intro m hm
        have hlt := (hmid m hm).2
        exact ih (by omega)
      · intro m₁ h₁ m₂ h₂ hlt r hr
        obtain ⟨c, t, rfl, hc⟩ := exists_continues hp (hmid m₁ h₁).1 (hmid m₂ h₂).1 hlt
        obtain ⟨s, hs, heq⟩ := hmem _ h₂ r hr
        exact eq_of_not_begins (q := many p) (hdisjoint c hc) hs heq
    · intro r hr r' hr'
      obtain ⟨m, hm, hrm⟩ := List.mem_flatMap.1 hr
      rw [List.mem_singleton.1 hr']
      exact (hle m hm r hrm).trans_lt (hmid m hm).2

/-- The leftovers of a deterministic pattern come in order of length: the longest match first. -/
theorem rests_ascending (hp : p.IsDeterministic) (cs : List Char) :
    (p.rests cs).Pairwise (·.length < ·.length) := by
  induction p generalizing cs with
  | empty =>
    rw [rests_empty]
    exact List.pairwise_singleton _ _
  | one k =>
    cases cs with
    | nil => exact List.Pairwise.nil
    | cons c cs =>
      rw [rests]
      split
      · exact List.pairwise_singleton _ _
      · exact List.Pairwise.nil
  | sequence p q ihp ihq =>
    obtain ⟨hdetp, hdetq, hdisjoint⟩ := hp
    rw [rests_sequence]
    refine flatMap_ascending (ihp hdetp cs) (fun m _ => ihq hdetq m)
      (fun m _ r hr => length_le_of_mem_rests hr) ?_
    intro m₁ h₁ m₂ h₂ hlt r hr
    obtain ⟨c, t, rfl, hc⟩ := exists_continues hdetp h₁ h₂ hlt
    obtain ⟨s, hs, heq⟩ := mem_rests.1 hr
    exact eq_of_not_begins (hdisjoint c hc) hs heq
  | choice p q ihp ihq =>
    obtain ⟨hdetp, hdetq, hnull, hdisjoint⟩ := hp
    rw [rests_choice]
    refine List.pairwise_append.2 ⟨ihp hdetp cs, ihq hdetq cs, ?_⟩
    intro r₁ h₁ r₂ h₂
    obtain ⟨s₁, hs₁, rfl⟩ := mem_rests.1 h₁
    obtain ⟨s₂, hs₂, heq⟩ := mem_rests.1 h₂
    rcases s₁ with _ | ⟨c, s₁⟩
    · rw [nullable_eq_true_iff.2 hs₁] at hnull
      cases hnull
    · -- the second branch cannot begin with the first character of the first one
      obtain rfl := eq_of_not_begins (hdisjoint c (begins_of_mem hs₁)) hs₂ heq
      show r₁.length < (c :: s₁ ++ r₁).length
      rw [List.length_append, List.length_cons]
      omega
  | many p ih =>
    obtain ⟨hdet, hdisjoint⟩ := hp
    rw [rests]
    exact repeated_ascending hdet hdisjoint (ih hdet) le_rfl

/-- For a deterministic pattern the preferred match takes all of a text exactly if the text is in
the language. -/
theorem matchesWhole_iff (hp : p.IsDeterministic) :
    p.matchesWhole cs = true ↔ cs ∈ p.language := by
  refine ⟨mem_language_of_matchesWhole, fun hcs => ?_⟩
  have hnil : [] ∈ p.rests cs := mem_rests.2 ⟨cs, hcs, (List.append_nil cs).symm⟩
  have hasc := rests_ascending hp cs
  unfold matchesWhole
  rcases hrests : p.rests cs with _ | ⟨r, rs⟩
  · rw [hrests] at hnil
    cases hnil
  · rw [hrests] at hnil hasc
    rcases List.mem_cons.1 hnil with rfl | htail
    · rfl
    · exact absurd ((List.pairwise_cons.1 hasc).1 [] htail) (Nat.not_lt_zero _)

end SearchBox.Pattern
