import SearchBox.Proofs.Reading
import SearchBox.Proofs.Span

/-!
# What a query stores

A query `Stores` a scalar if one of its constraints has it as the value or as a bound, be it in a
field or in one of the alternatives. A comma list stores what its pieces store
(`Range.stores_fragmentOf`), and a piece stores what its tokens are read as
(`Token.Reading.stores_iff`).
-/

namespace SearchBox

/-- The scalar is the value, or one of the bounds. -/
inductive Constraint.Stores (v : Scalar) : Constraint → Prop
  | value : Stores v (.value v)
  | min {o : Operators} (h : o.min = some v) : Stores v (.operators o)
  | max {o : Operators} (h : o.max = some v) : Stores v (.operators o)

/-- The scalar stands in a field of the query, or in one of its alternatives. -/
inductive Query.Stores (v : Scalar) : Query → Prop
  | field {q : Query} {key : String} {c : Constraint} (h : (key, c) ∈ q.fields.entries)
    (hc : c.Stores v) : Stores v q
  | alternative {q a : Query} {qs : List Query} (h : q.alternatives = some qs) (ha : a ∈ qs)
    (hv : a.Stores v) : Stores v q

variable {v : Scalar}

namespace Constraint

theorem stores_value {w : Scalar} : (value w).Stores v ↔ v = w := by
  constructor
  · rintro ⟨⟩
    rfl
  · rintro rfl
    exact .value

theorem stores_range {low high : Option Scalar} :
    (range low high).Stores v ↔ low = some v ∨ high = some v := by
  constructor
  · rintro (_ | h | h)
    · exact .inl h
    · exact .inr h
  · rintro (h | h)
    · exact .min h
    · exact .max h

end Constraint

namespace Query

theorem stores_single {key : String} {c : Constraint} :
    (single key c).Stores v ↔ c.Stores v := by
  constructor
  · intro h
    cases h with
    | field hmem hc =>
      cases List.mem_singleton.1 hmem
      exact hc
    | alternative hqs => cases hqs
  · exact .field (List.mem_singleton_self _)

theorem stores_anyOf {qs : List Query} : (anyOf qs).Stores v ↔ ∃ q ∈ qs, q.Stores v := by
  constructor
  · intro h
    cases h with
    | field hmem => cases hmem
    | alternative hqs ha hv =>
      cases hqs
      exact ⟨_, ha, hv⟩
  · rintro ⟨q, hq, hv⟩
    exact .alternative rfl hq hv

end Query

/-- A fragment stores what its constraints store. -/
theorem Range.stores_fragmentOf {key : String} {cs : List Constraint} :
    (fragmentOf key cs).query.Stores v ↔ ∃ c ∈ cs, c.Stores v := by
  have hanyOf : (Query.anyOf (cs.map (.single key))).Stores v ↔ ∃ c ∈ cs, c.Stores v := by
    rw [Query.stores_anyOf]
    simp only [List.mem_map, exists_exists_and_eq_and, Query.stores_single]
  rcases cs with _ | ⟨c, _ | ⟨d, cs⟩⟩
  · exact hanyOf
  · simpa [fragmentOf, Fragment.query] using Query.stores_single
  · exact hanyOf

/-- **What is stored for a reading is what its tokens are read as.** -/
theorem Token.Reading.stores_iff {read : Reader} {r : Reading} {c : Constraint}
    (h : r.constraint read = .ok c) : c.Stores v ↔ ∃ t ∈ r.tokens, read t = .ok v := by
  cases r with
  | value a =>
    obtain ⟨w, hw, rfl⟩ := map_eq_ok.1 h
    rw [Constraint.stores_value]
    simp [tokens, hw, eq_comm]
  | atLeast a =>
    obtain ⟨w, hw, rfl⟩ := map_eq_ok.1 h
    rw [Constraint.stores_range]
    simp [tokens, hw]
  | interval a b =>
    obtain ⟨w, hw, h'⟩ := bind_eq_ok.1 h
    obtain ⟨w', hw', rfl⟩ := map_eq_ok.1 h'
    rw [Constraint.stores_range]
    simp [tokens, hw, hw']

end SearchBox
