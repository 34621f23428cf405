import SearchBox.SetCondition
import SearchBox.Proofs.Failure
import SearchBox.Proofs.Query

/-!
# Set conditions on a free field

A condition on a stored set writes one constraint, under its field or under a column with a derived
value. On a query without a constraint there, it reads nothing of the query
(`exists_apply_eq_insert`).
-/

namespace SearchBox.SetCondition

variable {α : Type} [SetItem α] [BEq α]

theorem addOperator_of_not_mem (set : Operators → Operators) {field : String} {q : Query}
    (h : field ∉ q.fields.keys) :
    addOperator set field q = (q.insert field (.operators (set {})), .ok ()) := by
  rw [addOperator, Query.get?_eq_none_iff.2 h]

theorem setValue_of_not_mem (items : List α) {field : String} {q : Query}
    (h : field ∉ q.fields.keys) :
    setValue items field q =
      (q.insert field (.value (.list (scalars (canonical items)))), .ok ()) := by
  rw [setValue, if_neg fun hc => h (Query.contains_eq_true_iff.1 hc)]

/-- The operators with the one that belongs to a mode; the last mode has none. -/
def withItems (mode : SetMode) (vs : List Scalar) (o : Operators) : Operators :=
  match mode with
  | .containsAll => { o with contains := some vs }
  | .containsNone => { o with excludes := some vs }
  | .containedIn => { o with containedIn := some vs }
  | .exactly => o

/-- Every mode but the last one sets an operator. -/
theorem apply_of_ne_exactly {mode : SetMode} (h : mode ≠ .exactly)
    (column : Option (DerivedColumn α)) (items : List α) (field : String) :
    apply mode column items field = addOperator (withItems mode (scalars items)) field := by
  cases mode with
  | containsAll => rfl
  | containsNone => rfl
  | containedIn => rfl
  | exactly => exact absurd rfl h

/-- A condition inserts one constraint, the same into every query that has none there. -/
theorem exists_apply_eq_insert (mode : SetMode) (column : Option (DerivedColumn α))
    (items : List α) (field : String) :
    ∃ key c, ∀ q : Query, key ∉ q.fields.keys →
      apply mode column items field q = (q.insert key c, .ok ()) := by
  by_cases h : mode = .exactly
  · subst h
    cases column with
    | none => exact ⟨field, _, fun q hq => setValue_of_not_mem items hq⟩
    | some column => exact ⟨column.field, .value (column.derive items), fun q _ => rfl⟩
  · rw [apply_of_ne_exactly h]
    exact ⟨field, _, fun q hq => addOperator_of_not_mem _ hq⟩

/-- A condition fails only because of a conflict with an earlier one. -/
theorem failsOnly_apply (mode : SetMode) (column : Option (DerivedColumn α)) (items : List α)
    (field : String) (q : Query) :
    FailsOnly (· = conflict) (apply mode column items field q).2 := by
  by_cases h : mode = .exactly
  · subst h
    cases column with
    | none =>
      rw [apply, setValue]
      split
      · exact .error rfl
      · exact .ok _
    | some column => exact .ok _
  · rw [apply_of_ne_exactly h, addOperator]
    split
    · exact .ok _
    · exact .ok _
    · exact .error rfl

/-! ### On a field with a constraint -/

variable {field : String} {q : Query}

/-- An equal array is not asked for on a field that has a constraint. -/
theorem setValue_of_mem (items : List α) (h : field ∈ q.fields.keys) :
    setValue items field q = (q, .error conflict) := by
  rw [setValue, if_pos (Query.contains_eq_true_iff.2 h)]

theorem setValue_of_get?_eq_some {c : Constraint} (h : q.get? field = some c) (items : List α) :
    setValue items field q = (q, .error conflict) := by
  refine setValue_of_mem items ?_
  by_contra hfree
  rw [Query.get?_eq_none_iff.2 hfree] at h
  cases h

/-- An equal array refuses every condition. -/
theorem apply_of_value {v : Scalar} (h : q.get? field = some (.value v)) (mode : SetMode)
    (items : List α) : apply mode none items field q = (q, .error conflict) := by
  by_cases hmode : mode = .exactly
  · rw [hmode]
    exact setValue_of_get?_eq_some h items
  · rw [apply_of_ne_exactly hmode, addOperator, h]

/-- Operators are written over, one at a time, and refuse an equal array. -/
theorem apply_of_operators {o : Operators} (h : q.get? field = some (.operators o)) (mode : SetMode)
    (items : List α) :
    apply mode none items field q =
      if mode = .exactly then (q, .error conflict)
      else (q.insert field (.operators (withItems mode (scalars items) o)), .ok ()) := by
  by_cases hmode : mode = .exactly
  · rw [if_pos hmode, hmode]
    exact setValue_of_get?_eq_some h items
  · rw [if_neg hmode, apply_of_ne_exactly hmode, addOperator, h]

/-- What a condition writes, it writes under its field. -/
theorem exists_insert_of_apply_eq_ok {mode : SetMode} {items : List α} {q' : Query}
    (h : apply mode none items field q = (q', .ok ())) : ∃ c, q' = q.insert field c := by
  by_cases hmode : mode = .exactly
  · subst hmode
    rw [apply, setValue] at h
    split at h
    · cases h
    · cases h
      exact ⟨_, rfl⟩
  · rw [apply_of_ne_exactly hmode, addOperator] at h
    split at h
    · cases h
      exact ⟨_, rfl⟩
    · cases h
      exact ⟨_, rfl⟩
    · cases h

end SearchBox.SetCondition
