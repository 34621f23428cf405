import SearchBox.Proofs.Conjunction

/-!
# Joining choices that have alternatives of their own

A side of a pair `Offers` alternatives: those of a query that has nothing else, or the query itself
if it has fields only. Two sides that offer something are joined, in a `product`, exactly if no
alternative of the left one shares a field with one of the right one. The alternatives may be any
queries. Where a left and a right one both have alternatives of their own, the joined element keeps
only those of the right one (`Query.beneath`); everywhere else it is their conjunction
(`combine_offers`).
-/

namespace SearchBox.Conjunction

universe u

/-- The query has alternatives to be joined, at least one. -/
inductive Offers : Query → List Query → Prop
  /-- A query with fields only is the one alternative. -/
  | plain {q : Query} (h : q.Plain) : Offers q [q]
  /-- The alternatives of a query without fields. -/
  | anyOf {qs : List Query} (h : qs ≠ []) : Offers (.anyOf qs) qs

/-- A side has alternatives to be joined exactly if the query offers them. -/
theorem sides_eq_ok_iff {q : Query} {qs : List Query} (h : qs ≠ []) :
    sides q = .ok qs ↔ Offers q qs := by
  constructor
  · intro hq
    obtain ⟨fields, _ | qs'⟩ := q
    · cases hfields : fields.isEmpty with
      | true =>
        simp [sides, Query.isEmpty, hfields] at hq
        exact absurd hq h
      | false =>
        simp [sides, Query.isEmpty, hfields] at hq
        exact hq ▸ .plain ⟨hfields, rfl⟩
    · cases hfields : fields.isEmpty with
      | true =>
        simp [sides, hfields] at hq
        obtain rfl := OrderedMap.eq_empty_of_isEmpty hfields
        exact hq ▸ .anyOf (hq ▸ h)
      | false => simp [sides, hfields] at hq
  · rintro (⟨hfields, halternatives⟩ | -)
    · simp [sides, Query.isEmpty, hfields, halternatives]
    · simp [sides, Query.anyOf, OrderedMap.isEmpty]

variable {l r : Query} {ls rs : List Query}

theorem Offers.ne_nil (h : Offers l ls) : ls ≠ [] := by
  cases h with
  | plain => exact List.cons_ne_nil _ _
  | anyOf h => exact h

theorem combine_of_offers (hl : Offers l ls) (hr : Offers r rs) : combine l r = joinAll ls rs := by
  rw [combine, (sides_eq_ok_iff hl.ne_nil).2 hl, (sides_eq_ok_iff hr.ne_nil).2 hr]
  simp [Except.bind, hl.ne_nil, hr.ne_nil]

/-- Alternatives are joined if no left one shares a field with a right one. -/
theorem joinAll_of_disjoint (h : ∀ a ∈ ls, ∀ b ∈ rs, a.Disjoint b) :
    joinAll ls rs = .ok (product ls rs) := by
  cases hjoin : joinAll ls rs with
  | error e =>
    obtain ⟨key, -, a, ha, b, hb, hka, hkb⟩ := joinAll_eq_error hjoin
    exact absurd hka (h a ha b hb key hkb)
  | ok cs => rw [(joinAll_eq_ok hjoin).1]

/-- The rows of a product are as long as the right list. -/
theorem getElem?_product {i j : Nat} {a b : Query} (ha : ls[i]? = some a) (hb : rs[j]? = some b) :
    (product ls rs)[i * rs.length + j]? = some (a.update b) := by
  obtain ⟨hj, -⟩ := List.getElem?_eq_some_iff.1 hb
  induction ls generalizing i with
  | nil => simp at ha
  | cons l ls ih =>
    have hcons : product (l :: ls) rs = rs.map l.update ++ product ls rs := rfl
    cases i with
    | zero =>
      obtain rfl : l = a := by simpa using ha
      rw [hcons, Nat.zero_mul, Nat.zero_add, List.getElem?_append_left (by simpa using hj),
        List.getElem?_map, hb, Option.map_some]
    | succ i =>
      have hle : (rs.map l.update).length ≤ (i + 1) * rs.length + j := by
        rw [List.length_map, Nat.add_mul]
        omega
      have hrest : (i + 1) * rs.length + j - (rs.map l.update).length = i * rs.length + j := by
        rw [List.length_map, Nat.add_mul]
        omega
      rw [hcons, List.getElem?_append_right hle, hrest]
      exact ih (by simpa using ha)

/-- **What joined alternatives mean.** Two sides that offer alternatives are combined exactly if no
left one shares a field with a right one, and otherwise refused for such a field. The result has one
element for each pair, the left ones varying slowest. It holds of a record exactly if the right
alternative does and what is left of the left one beneath it; that is their conjunction unless both
have alternatives of their own. -/
theorem combine_offers (hl : Offers l ls) (hr : Offers r rs) :
    ((∃ cs, combine l r = .ok cs) ↔ ∀ a ∈ ls, ∀ b ∈ rs, a.Disjoint b) ∧
    (∀ e, combine l r = .error e → ∃ key, e = .overlap key ∧
      ∃ a ∈ ls, ∃ b ∈ rs, key ∈ a.fields.keys ∧ key ∈ b.fields.keys) ∧
    ∀ cs, combine l r = .ok cs → cs.length = ls.length * rs.length ∧
      ∀ (i j : Nat) a b, ls[i]? = some a → rs[j]? = some b →
        ∃ c, cs[i * rs.length + j]? = some c ∧
          ∀ (Record : Type u) (means : String → Constraint → Record → Prop) x,
            (c.Holds means x ↔ (a.beneath b).Holds means x ∧ b.Holds means x) ∧
            (a.alternatives = none ∨ b.alternatives = none →
              (c.Holds means x ↔ a.Holds means x ∧ b.Holds means x)) := by
  rw [combine_of_offers hl hr]
  refine ⟨⟨?_, fun h => ⟨_, joinAll_of_disjoint h⟩⟩, fun e => joinAll_eq_error, fun cs hcs => ?_⟩
  · rintro ⟨cs, hcs⟩
    exact (joinAll_eq_ok hcs).2
  obtain ⟨rfl, hdisjoint⟩ := joinAll_eq_ok hcs
  refine ⟨length_product ls rs, fun i j a b ha hb => ?_⟩
  have hab : a.Disjoint b :=
    hdisjoint a (List.mem_of_getElem? ha) b (List.mem_of_getElem? hb)
  refine ⟨a.update b, getElem?_product ha hb, fun Record means x => ⟨?_, fun h => ?_⟩⟩
  · exact Query.holds_update_beneath means x hab
  · exact Query.holds_update means x hab h

/-- Alternatives on the right alone are kept, so the second element is a conjunction. -/
theorem combine_offers_right :
    let l : Query := .anyOf [.single "a" (.value (.integer 1)), .single "a" (.value (.integer 2))]
    let b : Query :=
      { fields := .singleton "b" (.value (.integer 3))
        alternatives :=
          some [.single "c" (.value (.integer 4)), .single "d" (.value (.integer 5))] }
    ∃ cs, combine l (.anyOf [b]) = .ok cs ∧ cs.length = 2 ∧
      ∃ c, cs[1]? = some c ∧ ∀ (means : String → Constraint → Nat → Prop) x,
        c.Holds means x ↔
          (Query.single "a" (.value (.integer 2))).Holds means x ∧ b.Holds means x := by
  intro l b
  obtain ⟨hiff, -, hok⟩ := @combine_offers l (.anyOf [b]) _ _ (.anyOf (by simp)) (.anyOf (by simp))
  obtain ⟨cs, hcs⟩ := hiff.2 (by decide)
  obtain ⟨hlength, helements⟩ := hok cs hcs
  obtain ⟨c, hc, hmeans⟩ := helements 1 0 _ b rfl rfl
  exact ⟨cs, hcs, hlength, c, hc, fun means x => (hmeans Nat means x).2 (.inl rfl)⟩

/-- Two alternatives with alternatives of their own are not refused, and their only element holds of
a record of which the left one does not. -/
theorem not_combine_keeps_nested :
    let a : Query := .anyOf [.single "x" (.value (.integer 1))]
    let b : Query := .anyOf [.single "y" (.value (.integer 2))]
    let means : String → Constraint → Unit → Prop := fun key _ _ => key = "y"
    ∃ c, combine (.anyOf [a]) (.anyOf [b]) = .ok [c] ∧
      c.Holds means () ∧ ¬ a.Holds means () := by
  intro a b means
  have hsingle (key : String) (c : Constraint) :
      (Query.anyOf [.single key c]).Holds means () ↔ key = "y" := by
    simp [Query.holds_anyOf, Query.holds_single, means]
  exact ⟨b, rfl, (hsingle "y" _).2 rfl, fun h => absurd ((hsingle "x" _).1 h) (by decide)⟩

end SearchBox.Conjunction
