import SearchBox.Text.Basic

/-!
# Brackets

`enclosed?` takes the brackets off a text that begins and ends with them. `splitGroups` takes a text
apart around its groups `[…]`: a group runs from a bracket that opens to the first one that closes.
The texts between the groups are kept, also the empty ones, so the parts put together are the whole
text (`flatten_splitGroups`).
-/

namespace SearchBox.Token

open Text

/-- The text between an opening bracket at its front and a closing one at its back. -/
def enclosed? : List Char → Option (List Char)
  | '[' :: rest => if rest.getLast? = some ']' then some rest.dropLast else none
  | _ => none

@[simp] theorem enclosed?_nil : enclosed? [] = none := rfl

theorem eq_of_enclosed?_eq_some {cs inside : List Char} (h : enclosed? cs = some inside) :
    cs = '[' :: (inside ++ [']']) := by
  unfold enclosed? at h
  split at h
  · split at h
    · rename_i hlast
      obtain ⟨inside', rfl⟩ := List.getLast?_eq_some_iff.1 hlast
      rw [List.dropLast_concat] at h
      cases h
      rfl
    · cases h
  · cases h

theorem enclosed?_group (inside : List Char) : enclosed? ('[' :: (inside ++ [']'])) = some inside := by
  simp [enclosed?]

/-- The text begins with an opening bracket. -/
def opensBracket : List Char → Bool
  | '[' :: _ => true
  | _ => false

/-- The texts before, between and after the groups, and the groups themselves, in turn. -/
def splitGroups (cs : List Char) : List (List Char) :=
  match _open : cut '[' cs with
  | none => [cs]
  | some (before, rest) =>
    match _close : cut ']' rest with
    | none => [cs]
    | some (inside, after) => before :: ('[' :: inside ++ [']']) :: splitGroups after
termination_by cs.length
decreasing_by
  exact Nat.lt_trans (length_lt_of_cut _close) (length_lt_of_cut _open)

theorem splitGroups_ne_nil (cs : List Char) : splitGroups cs ≠ [] := by
  unfold splitGroups
  split
  · simp
  · split <;> simp

/-- Splitting around groups loses nothing. -/
theorem flatten_splitGroups (cs : List Char) : (splitGroups cs).flatten = cs := by
  fun_induction splitGroups cs with
  | case1 | case2 => simp
  | case3 cs before rest hopen inside after hclose ih =>
    obtain ⟨rfl, -⟩ := cut_eq_some hopen
    obtain ⟨rfl, -⟩ := cut_eq_some hclose
    simp [ih]

end SearchBox.Token
