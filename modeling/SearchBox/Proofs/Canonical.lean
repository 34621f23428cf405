import Mathlib.Data.List.Basic
import Mathlib.Data.List.Nodup
import SearchBox.SetCondition

/-!
# Items in their canonical form

An equal array is stored with its items in order, each once (`SetCondition.canonical`). For items with
a lawful order, that form `IsAscending` and has the members of the list that was given
(`mem_canonical`), so it depends on these alone (`canonical_eq_iff`), and it is as long as that list
only if no item came twice (`length_canonical_eq_iff`).
-/

namespace SearchBox

/-- The order of the items is linear, and equality of items is decided by `==`. -/
class LawfulSetItem (α : Type) [SetItem α] [BEq α] : Prop extends LawfulBEq α where
  le_trans (a b c : α) : SetItem.le a b = true → SetItem.le b c = true → SetItem.le a c = true
  le_total (a b : α) : (SetItem.le a b || SetItem.le b a) = true
  le_antisymm (a b : α) : SetItem.le a b = true → SetItem.le b a = true → a = b

instance : LawfulSetItem Int where
  le_trans a b c := by simpa [SetItem.le] using Int.le_trans
  le_total a b := by simpa [SetItem.le] using Int.le_total a b
  le_antisymm a b := by simpa [SetItem.le] using Int.le_antisymm

instance : LawfulSetItem String where
  le_trans a b c := by simpa [SetItem.le] using String.le_trans
  le_total a b := by simpa [SetItem.le] using String.le_total a b
  le_antisymm a b := by simpa [SetItem.le] using String.le_antisymm

namespace SetCondition

variable {α : Type} [BEq α]

/-! ### Runs of equal items -/

/-- What was collected before a run of equal items stands in front of the rest. -/
theorem loop_eraseReps (a : α) (items acc : List α) :
    List.eraseRepsBy.loop (· == ·) a items acc = acc.reverse ++ (a :: items).eraseReps := by
  show _ = acc.reverse ++ List.eraseRepsBy.loop (· == ·) a items []
  induction items generalizing a acc with
  | nil => simp [List.eraseRepsBy.loop]
  | cons b items ih =>
    simp only [List.eraseRepsBy.loop]
    cases a == b with
    | true => exact ih a acc
    | false =>
      simp only
      rw [ih b (a :: acc), ih b [a]]
      simp

section Lawful

variable [LawfulBEq α] {a : α} {items : List α}

/-- Of two equal neighbours, one stays. -/
theorem eraseReps_cons_cons (a b : α) (items : List α) :
    (a :: b :: items).eraseReps =
      if a == b then (b :: items).eraseReps else a :: (b :: items).eraseReps := by
  show List.eraseRepsBy.loop (· == ·) a (b :: items) [] = _
  rw [List.eraseRepsBy.loop]
  cases h : a == b with
  | true => rw [eq_of_beq h]; rfl
  | false => exact loop_eraseReps b items [a]

theorem mem_eraseReps : a ∈ items.eraseReps ↔ a ∈ items := by
  induction items with
  | nil => rfl
  | cons b items ih =>
    cases items with
    | nil => rfl
    | cons c items =>
      rw [eraseReps_cons_cons]
      split
      · rename_i h
        rw [ih, eq_of_beq h]
        simp
      · rw [List.mem_cons, ih, List.mem_cons (a := a) (b := b)]

theorem eraseReps_sublist (items : List α) : items.eraseReps.Sublist items := by
  induction items with
  | nil => exact .slnil
  | cons b items ih =>
    cases items with
    | nil => exact .refl _
    | cons c items =>
      rw [eraseReps_cons_cons]
      split
      · exact ih.cons b
      · exact ih.cons_cons b

end Lawful

/-! ### Canonical forms -/

variable [SetItem α] {a : α} {items items' : List α}

/-- Each item is less than all items behind it. -/
def IsAscending (items : List α) : Prop :=
  items.Pairwise fun a b => SetItem.le a b = true ∧ a ≠ b

omit [BEq α] in
theorem IsAscending.nodup (h : IsAscending items) : items.Nodup :=
  h.imp fun hab => hab.2

variable [LawfulSetItem α]

/-- In an ordered list equal items are neighbours, so each stays once. -/
theorem isAscending_eraseReps
    (h : items.Pairwise fun a b => SetItem.le a b = true) : IsAscending items.eraseReps := by
  induction items with
  | nil => exact .nil
  | cons a items ih =>
    cases items with
    | nil => exact List.pairwise_singleton _ a
    | cons b items =>
      rw [List.pairwise_cons] at h
      obtain ⟨ha, hrest⟩ := h
      rw [eraseReps_cons_cons]
      split
      · exact ih hrest
      · rename_i hne
        refine List.pairwise_cons.2 ⟨fun c hc => ?_, ih hrest⟩
        rw [mem_eraseReps] at hc
        refine ⟨ha c hc, ?_⟩
        -- An item equal to the first one could only come before the second one.
        rintro rfl
        rcases List.mem_cons.1 hc with heq | hc
        · exact hne (beq_iff_eq.2 heq)
        · have hle := (List.pairwise_cons.1 hrest).1 a hc
          exact hne (beq_iff_eq.2 (LawfulSetItem.le_antisymm a b (ha b (by simp)) hle))

theorem isAscending_canonical (items : List α) : IsAscending (canonical items) :=
  isAscending_eraseReps
    (List.pairwise_mergeSort LawfulSetItem.le_trans LawfulSetItem.le_total items)

theorem mem_canonical : a ∈ canonical items ↔ a ∈ items := by
  rw [canonical, mem_eraseReps, List.mem_mergeSort]

/-- An ascending list is determined by its members. -/
theorem IsAscending.eq_of_mem_iff (h : IsAscending items) (h' : IsAscending items')
    (hmem : ∀ a, a ∈ items ↔ a ∈ items') : items = items' := by
  have hperm : items.Perm items' := (List.perm_ext_iff_of_nodup h.nodup h'.nodup).2 hmem
  exact hperm.eq_of_pairwise
    (fun a b _ _ hab hba => LawfulSetItem.le_antisymm a b hab.1 hba.1) h h'

/-- **The canonical form stands for the set of the items**, in whatever order and however often they
come. -/
theorem canonical_eq_iff : canonical items = canonical items' ↔ ∀ a, a ∈ items ↔ a ∈ items' := by
  constructor
  · intro h a
    rw [← mem_canonical, h, mem_canonical]
  · intro h
    refine (isAscending_canonical items).eq_of_mem_iff (isAscending_canonical items') fun a => ?_
    rw [mem_canonical, mem_canonical, h]

/-- **The canonical form has all items if and only if no item comes twice.** -/
theorem length_canonical_eq_iff : (canonical items).length = items.length ↔ items.Nodup := by
  have hperm : (items.mergeSort SetItem.le).Perm items := List.mergeSort_perm items SetItem.le
  rw [← hperm.length_eq, ← hperm.nodup_iff]
  have hsub : (canonical items).Sublist (items.mergeSort SetItem.le) := eraseReps_sublist _
  constructor
  · intro h
    rw [← hsub.eq_of_length h]
    exact (isAscending_canonical items).nodup
  · intro h
    -- Both lists have the same members, none of them twice.
    have hmem : ∀ a, a ∈ canonical items ↔ a ∈ items.mergeSort SetItem.le := fun a => mem_eraseReps
    exact ((List.perm_ext_iff_of_nodup (isAscending_canonical items).nodup h).2 hmem).length_eq

end SetCondition

end SearchBox
