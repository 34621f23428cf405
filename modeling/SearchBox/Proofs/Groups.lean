import Mathlib.Data.List.Induction
import SearchBox.Proofs.Parts

/-!
# How a text is split around its groups

Splitting a text around its groups gives texts and groups in turn, and what is left between the
groups holds no further group. An `IsGroupSplit` says this about a list of texts without the scan
that finds the groups. There is exactly one for every text that puts the text together again, and it
is the one that the scan gives (`splitGroups_eq_iff`).
-/

namespace SearchBox.Token

open Text

variable {before group cs p : List Char} {ps : List (List Char)}

/-! ### Groups and the texts between them -/

/-- The text begins with a bracket that opens, and ends with the only one in it that closes. -/
def IsGroup (cs : List Char) : Prop := ∃ inside, ']' ∉ inside ∧ cs = '[' :: (inside ++ [']'])

/-- A part of the text is a group. -/
def HoldsGroup (cs : List Char) : Prop := ∃ group, IsGroup group ∧ group <:+: cs

/-- Texts and groups in turn, with a text at both ends. Counted from zero, the groups have the odd
places. No text holds a group, and only in the last one may a bracket open. -/
structure IsGroupSplit (ps : List (List Char)) : Prop where
  odd_length : ps.length % 2 = 1
  isGroup : ∀ i p, ps[2 * i + 1]? = some p → IsGroup p
  not_holdsGroup : ∀ i p, ps[2 * i]? = some p → ¬ HoldsGroup p
  not_opened : ∀ i p, ps[2 * i]? = some p → 2 * i + 1 < ps.length → '[' ∉ p

theorem not_holdsGroup_of_not_mem (h : '[' ∉ cs) : ¬ HoldsGroup cs := by
  rintro ⟨group, ⟨inside, -, rfl⟩, hbracket⟩
  exact h (hbracket.subset List.mem_cons_self)

/-- Where a bracket opens and one behind it closes, there is a group between them. -/
theorem holdsGroup_append {inside after : List Char} (hinside : ']' ∉ inside) :
    HoldsGroup (before ++ '[' :: (inside ++ ']' :: after)) :=
  ⟨'[' :: (inside ++ [']']), ⟨inside, hinside, rfl⟩, before, after, by simp⟩

/-- Where no bracket closes behind the first one that opens, there is no group. -/
theorem not_holdsGroup_of_not_closed {rest : List Char} (hbefore : '[' ∉ before)
    (hrest : ']' ∉ rest) : ¬ HoldsGroup (before ++ '[' :: rest) := by
  rintro ⟨group, ⟨inside, -, rfl⟩, u, v, h⟩
  have hsplit : u ++ ('[' :: (inside ++ ']' :: v)) = before ++ '[' :: rest := by
    rw [← h]
    simp
  rcases List.append_eq_append_iff.1 hsplit with ⟨t, rfl, ht⟩ | ⟨t, rfl, ht⟩
  · -- The group begins before the bracket, so that one of its own brackets opens earlier.
    cases t with
    | nil =>
      obtain ⟨-, rfl⟩ := List.cons.inj ht
      exact hrest (by simp)
    | cons c t =>
      obtain ⟨rfl, -⟩ := List.cons.inj ht
      exact hbefore (by simp)
  · cases t with
    | nil =>
      obtain ⟨-, rfl⟩ := List.cons.inj ht
      exact hrest (by simp)
    | cons c t =>
      obtain ⟨-, rfl⟩ := List.cons.inj ht
      exact hrest (by simp)

/-! ### One more text and group in front -/

theorem isGroupSplit_singleton : IsGroupSplit [p] ↔ ¬ HoldsGroup p := by
  constructor
  · exact fun h => h.not_holdsGroup 0 p rfl
  · intro h
    refine ⟨rfl, fun i q hq => ?_, fun i q hq => ?_, fun i q _ hlast => ?_⟩
    · cases hq
    · obtain rfl := List.mem_singleton.1 (List.mem_of_getElem? hq)
      exact h
    · rw [List.length_singleton] at hlast
      omega

theorem isGroupSplit_cons_cons :
    IsGroupSplit (before :: group :: ps) ↔ '[' ∉ before ∧ IsGroup group ∧ IsGroupSplit ps := by
  constructor
  · intro h
    have hlength := h.odd_length
    simp only [List.length_cons] at hlength
    refine ⟨h.not_opened 0 before rfl (by simp), h.isGroup 0 group rfl, by omega, ?_, ?_, ?_⟩
    · exact fun i p hp => h.isGroup (i + 1) p hp
    · exact fun i p hp => h.not_holdsGroup (i + 1) p hp
    · intro i p hp hlast
      exact h.not_opened (i + 1) p hp (by simp only [List.length_cons]; omega)
  · rintro ⟨hbefore, hgroup, h⟩
    have hlength := h.odd_length
    refine ⟨by simp only [List.length_cons]; omega, ?_, ?_, ?_⟩
    · rintro (_ | i) p hp
      · cases hp
        exact hgroup
      · exact h.isGroup i p hp
    · rintro (_ | i) p hp
      · cases hp
        exact not_holdsGroup_of_not_mem hbefore
      · exact h.not_holdsGroup i p hp
    · rintro (_ | i) p hp hlast
      · cases hp
        exact hbefore
      · simp only [List.length_cons] at hlast
        exact h.not_opened i p hp (by omega)

/-! ### The scan -/

theorem splitGroups_of_not_holdsGroup (h : ¬ HoldsGroup cs) : splitGroups cs = [cs] := by
  unfold splitGroups
  split
  · rfl
  · rename_i hopen
    obtain ⟨rfl, -⟩ := cut_eq_some hopen
    split
    · rfl
    · rename_i hclose
      obtain ⟨rfl, hinside⟩ := cut_eq_some hclose
      exact absurd (holdsGroup_append hinside) h

/-- **The scan gives texts and groups in turn.** -/
theorem isGroupSplit_splitGroups (cs : List Char) : IsGroupSplit (splitGroups cs) := by
  fun_induction splitGroups cs with
  | case1 cs hopen =>
    exact isGroupSplit_singleton.2 (not_holdsGroup_of_not_mem (cut_eq_none.1 hopen))
  | case2 cs before rest hopen hclose =>
    obtain ⟨rfl, hbefore⟩ := cut_eq_some hopen
    exact isGroupSplit_singleton.2 (not_holdsGroup_of_not_closed hbefore (cut_eq_none.1 hclose))
  | case3 cs before rest hopen inside after hclose ih =>
    obtain ⟨-, hbefore⟩ := cut_eq_some hopen
    obtain ⟨-, hinside⟩ := cut_eq_some hclose
    exact isGroupSplit_cons_cons.2 ⟨hbefore, ⟨inside, hinside, rfl⟩, ih⟩

/-- **Texts and groups in turn are found again** in the text that they make. The induction takes a
text and the group behind it away. -/
theorem IsGroupSplit.splitGroups_flatten (h : IsGroupSplit ps) : splitGroups ps.flatten = ps := by
  induction ps using List.twoStepInduction with
  | nil => exact absurd h.odd_length (by decide)
  | singleton p =>
    rw [List.flatten_singleton, splitGroups_of_not_holdsGroup (isGroupSplit_singleton.1 h)]
  | cons_cons before group ps ih _ =>
    obtain ⟨hbefore, ⟨inside, hinside, rfl⟩, hps⟩ := isGroupSplit_cons_cons.1 h
    rw [List.flatten_cons, List.flatten_cons, splitGroups_group hbefore hinside, ih hps]

/-- **Splitting around groups is lossless and complete.** The parts of a text are those that give
the text when they are put together, and that are texts and groups in turn: their number is odd, the
parts at odd places are groups, no part at an even place holds a group, and in none of these but the
last does a bracket open. No other list of texts has these properties. -/
theorem splitGroups_eq_iff {cs : List Char} {ps : List (List Char)} :
    splitGroups cs = ps ↔ ps.flatten = cs ∧ IsGroupSplit ps := by
  constructor
  · rintro rfl
    exact ⟨flatten_splitGroups cs, isGroupSplit_splitGroups cs⟩
  · rintro ⟨rfl, h⟩
    exact h.splitGroups_flatten

end SearchBox.Token
