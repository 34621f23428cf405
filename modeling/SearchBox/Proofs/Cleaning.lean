import SearchBox.Box
import SearchBox.Proofs.Text

/-!
# Cleaning a text twice

A policy `Cleans` if it drops all blanks and keeps plus signs, as those of all ready-made boxes do.
A text that it has prepared holds no angle brackets and no blanks, passes the check on spaces
(`Cleans.checkSpaces_prepare`), and is not changed when it is prepared again
(`Cleans.prepare_prepare`).
-/

namespace SearchBox

open Text

namespace Text

/-! ### Dots -/

theorem dashDots_cons {c : Char} {cs : List Char} (h : c = '.' → cs.head? ≠ some '.') :
    dashDots (c :: cs) = c :: dashDots cs := by
  rw [dashDots]
  rintro rest rfl rfl
  exact h rfl rfl

theorem mem_dashDots {c : Char} {cs : List Char} (h : c ∈ dashDots cs) : c = '-' ∨ c ∈ cs := by
  fun_induction dashDots cs with
  | case1 rest ih =>
    rcases List.mem_cons.1 h with rfl | h
    · exact .inl rfl
    · exact (ih h).imp_right fun hrest => by simp [hrest]
  | case2 d rest _ ih =>
    rcases List.mem_cons.1 h with rfl | h
    · exact .inr (by simp)
    · exact (ih h).imp_right fun hrest => by simp [hrest]
  | case3 => simp at h

/-- A text that begins with a dot after pairs of dots were rewritten began with that dot. -/
theorem head?_of_head?_dashDots {cs : List Char} (h : (dashDots cs).head? = some '.') :
    cs.head? = some '.' := by
  fun_cases dashDots cs with
  | case1 rest => rfl
  | case2 c rest hdots =>
    rw [dashDots.eq_2 c rest hdots] at h
    exact h
  | case3 => simp at h

/-- No pair of dots is left to be rewritten. -/
theorem dashDots_dashDots (cs : List Char) : dashDots (dashDots cs) = dashDots cs := by
  fun_induction dashDots cs with
  | case1 rest ih => rw [dashDots_cons fun hc => absurd hc (by decide), ih]
  | case2 c rest hdots ih =>
    rw [dashDots_cons, ih]
    -- A dot that stays has no dot behind it, and the rest does not get one at its front.
    intro hc hhead
    obtain ⟨tail, htail⟩ := List.head?_eq_some_iff.1 (head?_of_head?_dashDots hhead)
    exact hdots tail hc htail
  | case3 => rfl

theorem length_dashDots_le (cs : List Char) : (dashDots cs).length ≤ cs.length := by
  fun_induction dashDots cs with
  | case1 rest ih =>
    simp only [List.length_cons]
    omega
  | case2 c rest _ ih =>
    simp only [List.length_cons]
    omega
  | case3 => exact Nat.le_refl _

theorem dashDots_of_not_mem {cs : List Char} (h : '.' ∉ cs) : dashDots cs = cs := by
  induction cs with
  | nil => rfl
  | cons c cs ih =>
    rw [List.mem_cons, not_or] at h
    rw [dashDots_cons fun hc => absurd hc.symm h.1, ih h.2]

end Text

namespace Cleaning

/-! ### Stripped texts -/

theorem isStripped_eq_false {c : Char} (h : isStripped false c = false) :
    c ≠ '<' ∧ c ≠ '>' ∧ isBlank c = false := by
  simpa [isStripped, and_assoc] using h

theorem isStripped_of_mem_stripped {raw : List Char} {c : Char} (h : c ∈ stripped false raw) :
    isStripped false c = false := by
  simpa using (List.mem_filter.1 h).2

theorem isStripped_of_mem_dashDots_stripped (raw : List Char) :
    ∀ c ∈ dashDots (stripped false raw), isStripped false c = false := by
  intro c hc
  rcases mem_dashDots hc with rfl | hc
  · decide
  · exact isStripped_of_mem_stripped hc

theorem stripped_of_not_mem {cs : List Char} (h : ∀ c ∈ cs, isStripped false c = false) :
    stripped false cs = cs :=
  List.filter_eq_self.2 fun c hc => by simp [h c hc]

/-- A text without blanks stays when spaces are dropped. -/
theorem erase_space_of_not_mem {cs : List Char} (h : ∀ c ∈ cs, isStripped false c = false) :
    erase ' ' cs = cs := by
  refine List.filter_eq_self.2 fun c hc => ?_
  have hne : c ≠ ' ' := by
    rintro rfl
    exact absurd (isStripped_eq_false (h _ hc)).2.2 (by decide)
  simpa using hne

theorem stripped_trim (cs : List Char) : stripped false (trim cs) = stripped false cs :=
  filter_trim (fun c hc => by simp [isStripped, hc]) cs

/-- Where there are no blanks there are none between digits. -/
theorem hasDigitGap_of_not_blank {cs : List Char} (h : ∀ c ∈ cs, isBlank c = false) :
    Token.hasDigitGap cs = false := by
  induction cs with
  | nil => rfl
  | cons c cs ih =>
    have hopens : Token.opensGap cs = false := by
      cases cs with
      | nil => rfl
      | cons d ds => simp [Token.opensGap, h d (by simp)]
    rw [Token.hasDigitGap, hopens, ih fun d hd => h d (by simp [hd]), Bool.and_false, Bool.or_false]

theorem checkSpaces_of_not_blank {cs : List Char} (h : ∀ c ∈ cs, isBlank c = false) :
    checkSpaces cs = .ok () := by
  rw [checkSpaces, hasDigitGap_of_not_blank h]
  rfl

end Cleaning

/-! ### Prepared texts -/

namespace Policy

/-- Preparing a text may write dashes into it, and nothing else. -/
theorem mem_stripped_of_mem_prepare {p : Policy} {raw : List Char} {c : Char}
    (hc : c ∈ p.prepare raw) : c = '-' ∨ c ∈ Cleaning.stripped p.keepsSpaces raw := by
  have hdashed : c ∈ if p.dashesDots then Cleaning.withDashes (Cleaning.stripped p.keepsSpaces raw)
      else Cleaning.stripped p.keepsSpaces raw := by
    unfold prepare at hc
    dsimp only at hc
    split at hc
    · exact (List.mem_filter.1 hc).1
    · exact hc
  split at hdashed
  · exact mem_dashDots (List.mem_filter.1 hdashed).1
  · exact .inr hdashed

/-- Whatever the policy, a prepared text has no angle brackets. -/
theorem not_angle_of_mem_prepare {p : Policy} {raw : List Char} {c : Char}
    (hc : c ∈ p.prepare raw) : c ≠ '<' ∧ c ≠ '>' := by
  rcases mem_stripped_of_mem_prepare hc with rfl | hc
  · exact ⟨by decide, by decide⟩
  · have hkept := (List.mem_filter.1 hc).2
    simp only [Cleaning.isStripped, Bool.not_or, Bool.and_eq_true, Bool.not_eq_true',
      decide_eq_false_iff_not] at hkept
    exact hkept.1

/-- The policy drops all blanks, and keeps plus signs. -/
structure Cleans (p : Policy) : Prop where
  keepsSpaces_eq : p.keepsSpaces = false
  dropsPlus_eq : p.dropsPlus = false

namespace Cleans

variable {p : Policy} (hp : p.Cleans)

include hp

/-- To prepare a text is to strip it, and to write dashes for dots if the policy says so. -/
theorem prepare_eq (raw : List Char) :
    p.prepare raw =
      if p.dashesDots then dashDots (Cleaning.stripped false raw)
      else Cleaning.stripped false raw := by
  unfold prepare Cleaning.withDashes
  rw [hp.keepsSpaces_eq, hp.dropsPlus_eq]
  simp only [Bool.false_eq_true, if_false]
  -- All spaces went away before the dashes were written.
  rw [Cleaning.erase_space_of_not_mem (Cleaning.isStripped_of_mem_dashDots_stripped raw)]

/-- A prepared text has no angle brackets and no blanks. -/
theorem isStripped_of_mem_prepare {raw : List Char} {c : Char} (hc : c ∈ p.prepare raw) :
    Cleaning.isStripped false c = false := by
  rw [hp.prepare_eq] at hc
  split at hc
  · exact Cleaning.isStripped_of_mem_dashDots_stripped raw c hc
  · exact Cleaning.isStripped_of_mem_stripped hc

theorem length_prepare_le (raw : List Char) : (p.prepare raw).length ≤ raw.length := by
  have hstripped : (Cleaning.stripped false raw).length ≤ raw.length := List.length_filter_le _ _
  rw [hp.prepare_eq]
  split
  · exact Nat.le_trans (length_dashDots_le _) hstripped
  · exact hstripped

/-- **Preparing a text twice is preparing it once.** -/
theorem prepare_prepare (raw : List Char) : p.prepare (p.prepare raw) = p.prepare raw := by
  have hstripped : Cleaning.stripped false (p.prepare raw) = p.prepare raw :=
    Cleaning.stripped_of_not_mem fun c hc => hp.isStripped_of_mem_prepare hc
  rw [hp.prepare_eq (p.prepare raw), hstripped, hp.prepare_eq raw]
  split
  · exact dashDots_dashDots _
  · rfl

theorem checkSpaces_prepare (raw : List Char) : Cleaning.checkSpaces (p.prepare raw) = .ok () :=
  Cleaning.checkSpaces_of_not_blank fun _ hc =>
    (Cleaning.isStripped_eq_false (hp.isStripped_of_mem_prepare hc)).2.2

/-- A word with blanks around it is prepared by trimming. -/
theorem prepare_eq_trim {raw : List Char}
    (h : ∀ c ∈ trim raw, Cleaning.isStripped false c = false ∧ c ≠ '.') :
    p.prepare raw = trim raw := by
  have hstripped : Cleaning.stripped false raw = trim raw := by
    rw [← Cleaning.stripped_trim, Cleaning.stripped_of_not_mem fun c hc => (h c hc).1]
  rw [hp.prepare_eq, hstripped, dashDots_of_not_mem fun hdot => (h '.' hdot).2 rfl, ite_self]

end Cleans

end Policy

end SearchBox
