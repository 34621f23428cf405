/-!
# Cutting and joining texts

A text that is worked on is a list of characters. This module holds the operations that the token
compilers share:

* `pieces c` are the parts between the occurrences of the character `c`, and `joined c` puts them
  back together (`joined_pieces`);
* `cut c` splits at the first occurrence of `c`;
* `dashDots` writes every pair of dots as one dash;
* `utf8Length` measures a text in UTF-8 bytes, the unit of offsets.
-/

namespace SearchBox.Text

/-! ### Pieces -/

/-- Puts a character in front of the first of several pieces. -/
def consFirst (x : Char) : List (List Char) → List (List Char)
  | [] => [[x]]
  | p :: ps => (x :: p) :: ps

/-- The parts of a text between the occurrences of `c`; a text without `c` is one piece. -/
def pieces (c : Char) : List Char → List (List Char)
  | [] => [[]]
  | x :: xs => if x = c then [] :: pieces c xs else consFirst x (pieces c xs)

/-- The pieces with `c` between them. -/
def joined (c : Char) (ps : List (List Char)) : List Char := List.intercalate [c] ps

@[simp] theorem pieces_nil (c : Char) : pieces c [] = [[]] := rfl

theorem pieces_cons_self (c : Char) (xs : List Char) : pieces c (c :: xs) = [] :: pieces c xs := by
  simp [pieces]

theorem pieces_cons_of_ne {c x : Char} (h : x ≠ c) (xs : List Char) :
    pieces c (x :: xs) = consFirst x (pieces c xs) := by
  simp [pieces, h]

theorem pieces_ne_nil (c : Char) (xs : List Char) : pieces c xs ≠ [] := by
  cases xs with
  | nil => simp
  | cons x xs =>
    unfold pieces
    split
    · simp
    · cases pieces c xs <;> simp [consFirst]

theorem pieces_of_not_mem {c : Char} {xs : List Char} (h : c ∉ xs) : pieces c xs = [xs] := by
  induction xs with
  | nil => rfl
  | cons x xs ih =>
    simp only [List.mem_cons, not_or] at h
    rw [pieces_cons_of_ne (Ne.symm h.1), ih h.2, consFirst]

theorem joined_consFirst (c x : Char) {ps : List (List Char)} (h : ps ≠ []) :
    joined c (consFirst x ps) = x :: joined c ps := by
  match ps with
  | [] => exact absurd rfl h
  | [p] => simp [joined, consFirst, List.intercalate]
  | p :: q :: ps => simp [joined, consFirst, List.intercalate]

/-- Joining the pieces gives the text back. -/
theorem joined_pieces (c : Char) (xs : List Char) : joined c (pieces c xs) = xs := by
  induction xs with
  | nil => simp [joined, List.intercalate]
  | cons x xs ih =>
    by_cases h : x = c
    · subst h
      rw [pieces_cons_self]
      obtain ⟨p, ps, hp⟩ := List.exists_cons_of_ne_nil (pieces_ne_nil x xs)
      rw [hp] at ih ⊢
      simpa [joined, List.intercalate] using ih
    · rw [pieces_cons_of_ne h, joined_consFirst c x (pieces_ne_nil c xs), ih]

/-- No piece holds the character that separates them. -/
theorem not_mem_of_mem_pieces {c : Char} {xs p : List Char} (h : p ∈ pieces c xs) : c ∉ p := by
  induction xs generalizing p with
  | nil => simp_all
  | cons x xs ih =>
    by_cases hx : x = c
    · subst hx
      rw [pieces_cons_self, List.mem_cons] at h
      rcases h with rfl | h
      · simp
      · exact ih h
    · rw [pieces_cons_of_ne hx] at h
      obtain ⟨q, qs, hq⟩ := List.exists_cons_of_ne_nil (pieces_ne_nil c xs)
      rw [hq, consFirst, List.mem_cons] at h
      rcases h with rfl | h
      · simp only [List.mem_cons, not_or]
        exact ⟨Ne.symm hx, ih (by simp [hq])⟩
      · exact ih (by simp [hq, h])

/-- The first piece ends before the first separator. -/
theorem exists_pieces_eq_cons (c : Char) (xs : List Char) :
    ∃ ps, pieces c xs = xs.takeWhile (· != c) :: ps := by
  induction xs with
  | nil => exact ⟨[], rfl⟩
  | cons x xs ih =>
    by_cases hx : x = c
    · subst hx
      exact ⟨pieces x xs, by simp [pieces_cons_self]⟩
    · obtain ⟨ps, hps⟩ := ih
      exact ⟨ps, by simp [pieces_cons_of_ne hx, hps, consFirst, hx]⟩

theorem subset_of_mem_pieces {c : Char} {xs p : List Char} (h : p ∈ pieces c xs) : p ⊆ xs := by
  induction xs generalizing p with
  | nil => simp_all
  | cons x xs ih =>
    by_cases hx : x = c
    · subst hx
      rw [pieces_cons_self, List.mem_cons] at h
      rcases h with rfl | h
      · exact List.nil_subset _
      · exact List.subset_cons_of_subset x (ih h)
    · obtain ⟨q, qs, hq⟩ := List.exists_cons_of_ne_nil (pieces_ne_nil c xs)
      rw [pieces_cons_of_ne hx, hq, consFirst, List.mem_cons] at h
      rcases h with rfl | h
      · exact List.cons_subset_cons x (ih (by simp [hq]))
      · exact List.subset_cons_of_subset x (ih (by simp [hq, h]))

/-! ### Cutting at a character -/

/-- The text before the first `c` and the text after it. -/
def cut (c : Char) : List Char → Option (List Char × List Char)
  | [] => none
  | x :: xs => if x = c then some ([], xs) else (cut c xs).map fun (a, b) => (x :: a, b)

theorem cut_eq_some {c : Char} {xs a b : List Char} (h : cut c xs = some (a, b)) :
    xs = a ++ c :: b ∧ c ∉ a := by
  induction xs generalizing a with
  | nil => simp [cut] at h
  | cons x xs ih =>
    unfold cut at h
    split at h
    · rename_i hx
      simp only [Option.some.injEq, Prod.mk.injEq] at h
      obtain ⟨rfl, rfl⟩ := h
      simp [hx]
    · rename_i hx
      simp only [Option.map_eq_some_iff, Prod.mk.injEq, Prod.exists] at h
      obtain ⟨a', b', h, rfl, rfl⟩ := h
      obtain ⟨rfl, hc⟩ := ih h
      simp only [List.cons_append, List.mem_cons, not_or, true_and]
      exact ⟨Ne.symm hx, hc⟩

theorem cut_eq_none {c : Char} {xs : List Char} : cut c xs = none ↔ c ∉ xs := by
  induction xs with
  | nil => simp [cut]
  | cons x xs ih =>
    unfold cut
    split
    · simp_all
    · rename_i hx
      simp [ih, Ne.symm hx]

/-- The text after a cut is shorter than the whole. -/
theorem length_lt_of_cut {c : Char} {xs a b : List Char} (h : cut c xs = some (a, b)) :
    b.length < xs.length := by
  obtain ⟨rfl, -⟩ := cut_eq_some h
  simp only [List.length_append, List.length_cons]
  omega

/-! ### Removing and replacing characters -/

/-- The text without the character `c`. -/
def erase (c : Char) (xs : List Char) : List Char := xs.filter (· != c)

@[simp] theorem erase_nil (c : Char) : erase c [] = [] := rfl

@[simp] theorem not_mem_erase (c : Char) (xs : List Char) : c ∉ erase c xs := by
  simp [erase]

/-- Every pair of dots, read from the left, becomes one dash. -/
def dashDots : List Char → List Char
  | '.' :: '.' :: rest => '-' :: dashDots rest
  | c :: rest => c :: dashDots rest
  | [] => []

@[simp] theorem dashDots_nil : dashDots [] = [] := rfl

@[simp] theorem dashDots_dots (rest : List Char) :
    dashDots ('.' :: '.' :: rest) = '-' :: dashDots rest := by
  rw [dashDots]

/-! ### Length in bytes -/

/-- The number of bytes of the text in UTF-8. -/
def utf8Length : List Char → Nat
  | [] => 0
  | c :: cs => c.utf8Size + utf8Length cs

@[simp] theorem utf8Length_nil : utf8Length [] = 0 := rfl

@[simp] theorem utf8Length_cons (c : Char) (cs : List Char) :
    utf8Length (c :: cs) = c.utf8Size + utf8Length cs := rfl

@[simp] theorem utf8Length_append (cs ds : List Char) :
    utf8Length (cs ++ ds) = utf8Length cs + utf8Length ds := by
  induction cs with
  | nil => simp
  | cons c cs ih => simp [ih, Nat.add_assoc]

end SearchBox.Text
