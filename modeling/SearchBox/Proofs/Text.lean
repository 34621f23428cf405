import Mathlib.Data.List.TakeWhile
import SearchBox.Text.Blank

/-!
# Trimming

Trimming takes blanks off both ends of a text and nothing else (`exists_trim`). So a text may be
trimmed before all of its blanks are dropped (`filter_trim`).
-/

namespace SearchBox.Text

/-- What trimming takes away stands at the two ends, and is blank. -/
theorem exists_trim (cs : List Char) :
    ∃ pre post, cs = pre ++ trim cs ++ post ∧
      (∀ c ∈ pre, isBlank c = true) ∧ ∀ c ∈ post, isBlank c = true := by
  refine ⟨cs.takeWhile isBlank, ((trimStart cs).reverse.takeWhile isBlank).reverse, ?_, ?_, ?_⟩
  · have hstart : cs.takeWhile isBlank ++ trimStart cs = cs := List.takeWhile_append_dropWhile
    have hend : trim cs ++ ((trimStart cs).reverse.takeWhile isBlank).reverse = trimStart cs := by
      rw [trim, trimEnd, ← List.reverse_append, List.takeWhile_append_dropWhile,
        List.reverse_reverse]
    rw [List.append_assoc, hend, hstart]
  · intro c hc
    exact List.mem_takeWhile_imp hc
  · intro c hc
    exact List.mem_takeWhile_imp (List.mem_reverse.1 hc)

/-- A text without blanks is trimmed already. -/
theorem trim_of_not_blank {cs : List Char} (h : ∀ c ∈ cs, isBlank c = false) : trim cs = cs := by
  have hdrop (ds : List Char) (hds : ∀ c ∈ ds, isBlank c = false) : ds.dropWhile isBlank = ds := by
    cases ds with
    | nil => rfl
    | cons d ds => rw [List.dropWhile_cons_of_neg (by simp [hds d])]
  rw [trim, trimStart, hdrop cs h, trimEnd, hdrop cs.reverse (by simpa using h), List.reverse_reverse]

theorem mem_of_mem_trim {c : Char} {cs : List Char} (h : c ∈ trim cs) : c ∈ cs := by
  obtain ⟨pre, post, hcs, -, -⟩ := exists_trim cs
  rw [hcs]
  simp [h]

/-- A text keeps its first character when that is not blank. -/
theorem exists_trim_cons {c : Char} (cs : List Char) (h : isBlank c = false) :
    ∃ rest, trim (c :: cs) = c :: rest := by
  obtain ⟨pre, post, hcs, hpre, hpost⟩ := exists_trim (c :: cs)
  have hnot : isBlank c ≠ true := by simp [h]
  -- The character belongs to neither end, as both are blank, so the core begins with it.
  cases pre with
  | cons d pre =>
    obtain ⟨rfl, -⟩ := List.cons.inj hcs
    exact absurd (hpre c (by simp)) hnot
  | nil =>
    cases htrim : trim (c :: cs) with
    | cons d rest =>
      rw [htrim] at hcs
      obtain ⟨rfl, -⟩ := List.cons.inj hcs
      exact ⟨rest, rfl⟩
    | nil =>
      have hc : post = c :: cs := by simpa [htrim] using hcs.symm
      exact absurd (hpost c (by simp [hc])) hnot

/-- For a filter that drops all blanks, a text may as well be trimmed first. -/
theorem filter_trim {p : Char → Bool} (hp : ∀ c, isBlank c = true → p c = false)
    (cs : List Char) : (trim cs).filter p = cs.filter p := by
  obtain ⟨pre, post, hcs, hpre, hpost⟩ := exists_trim cs
  have hnil : ∀ ds : List Char, (∀ c ∈ ds, isBlank c = true) → ds.filter p = [] := fun ds hds =>
    List.filter_eq_nil_iff.2 fun c hc => by simp [hp c (hds c hc)]
  calc (trim cs).filter p
      = (pre ++ trim cs ++ post).filter p := by
        simp [List.filter_append, hnil pre hpre, hnil post hpost]
    _ = cs.filter p := by rw [← hcs]

end SearchBox.Text
