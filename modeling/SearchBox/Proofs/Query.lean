import SearchBox.Query.Basic
import SearchBox.Proofs.OrderedMap

/-!
# What queries mean

A query is a condition on records. What a constraint on a key says about a record is left open here:
it is a parameter `means`, and `Query.Holds` says that a record satisfies all fields of a query and,
if it has alternatives, one of them.

Merging queries that share no key and have alternatives at most once is conjunction (`holds_update`,
`holds_updateAll`). If both have alternatives, those of the first one are lost
(`holds_update_beneath`). Every query is the disjunction of its `choices`: its alternatives, or itself.
What the text of one box compiles to is `Simple`: fields only or alternatives only.
-/

namespace SearchBox.Query

universe u

/-! ### Merging -/

/-- The two queries constrain no key in common. -/
def Disjoint (a b : Query) : Prop := ∀ k ∈ b.fields.keys, k ∉ a.fields.keys

instance (a b : Query) : Decidable (a.Disjoint b) :=
  inferInstanceAs (Decidable (∀ k ∈ b.fields.keys, k ∉ a.fields.keys))

@[simp] theorem disjoint_empty (a : Query) : a.Disjoint empty := by
  intro k hk
  simp [empty] at hk

@[simp] theorem empty_disjoint (b : Query) : empty.Disjoint b := by
  intro k _
  simp [empty]

/-- Queries with the same fields and the same alternatives are equal. -/
theorem ext {a b : Query} (hf : a.fields = b.fields) (ha : a.alternatives = b.alternatives) :
    a = b := by
  cases a; cases b; cases hf; cases ha; rfl

@[simp] theorem update_empty (q : Query) : q.update empty = q :=
  ext rfl (by simp [empty])

@[simp] theorem empty_update (q : Query) : empty.update q = q :=
  ext (OrderedMap.empty_merge q.fields) (by simp [empty])

theorem update_single (q : Query) (key : String) (c : Constraint) :
    q.update (single key c) = q.insert key c :=
  ext rfl (by simp [single])

theorem update_anyOf (q : Query) (qs : List Query) : q.update (anyOf qs) = q.setAlternatives qs :=
  ext rfl (by simp [anyOf])

/-- To fold a fragment is to merge it as a query of its own. -/
theorem fold_eq_update (q : Query) (f : Fragment) : q.fold f = q.update f.query := by
  cases f with
  | field key c => exact (update_single q key c).symm
  | anyOf qs => exact (update_anyOf q qs).symm

/-- A query with other keys is appended field by field. -/
theorem entries_update {a b : Query} (h : a.Disjoint b) :
    (a.update b).fields.entries = a.fields.entries ++ b.fields.entries :=
  OrderedMap.entries_merge_of_disjoint h

theorem mem_keys_update {a b : Query} {k : String} :
    k ∈ (a.update b).fields.keys ↔ k ∈ a.fields.keys ∨ k ∈ b.fields.keys :=
  OrderedMap.mem_keys_merge

theorem contains_eq_true_iff {q : Query} {k : String} : q.contains k = true ↔ k ∈ q.fields.keys :=
  OrderedMap.contains_eq_true_iff

theorem get?_eq_none_iff {q : Query} {k : String} : q.get? k = none ↔ k ∉ q.fields.keys :=
  OrderedMap.get?_eq_none_iff

/-- What is inserted stands under its key. -/
@[simp] theorem get?_insert_self (q : Query) (key : String) (c : Constraint) :
    (q.insert key c).get? key = some c :=
  OrderedMap.get?_insert_self q.fields key c

/-- A second insertion under one key overwrites the first. -/
theorem insert_insert_self (q : Query) (key : String) (c c' : Constraint) :
    (q.insert key c).insert key c' = q.insert key c' :=
  ext (OrderedMap.insert_insert_self q.fields key c c') rfl

/-- An insertion leaves the rest of the query as it is. -/
theorem erase_insert_self (q : Query) (key : String) (c : Constraint) :
    (q.insert key c).erase key = q.erase key :=
  ext (OrderedMap.erase_insert_self q.fields key c) rfl

/-- A query without fields and alternatives is the empty one. -/
theorem eq_empty_of_isEmpty {q : Query} (h : q.isEmpty = true) : q = empty := by
  simp only [isEmpty, Bool.and_eq_true, Option.isNone_iff_eq_none] at h
  exact ext (OrderedMap.eq_empty_of_isEmpty h.1) h.2

/-! ### Meaning -/

section Meaning

variable {Record : Type u} (means : String → Constraint → Record → Prop) (x : Record)

mutual

/-- The record satisfies every field, and one of the alternatives if there are some. -/
def Holds : Query → Prop
  | ⟨fields, alternatives⟩ =>
    (∀ e ∈ fields.entries, means e.1 e.2 x) ∧
      match alternatives with
      | none => True
      | some qs => HoldsOne qs

/-- The record satisfies one of the queries. -/
def HoldsOne : List Query → Prop
  | [] => False
  | q :: qs => Holds q ∨ HoldsOne qs

end

theorem holdsOne_iff {qs : List Query} : HoldsOne means x qs ↔ ∃ q ∈ qs, q.Holds means x := by
  induction qs with
  | nil => simp [HoldsOne]
  | cons q qs ih => simp [HoldsOne, ih]

theorem holds_iff {q : Query} :
    q.Holds means x ↔ (∀ e ∈ q.fields.entries, means e.1 e.2 x) ∧
      ∀ qs, q.alternatives = some qs → ∃ a ∈ qs, a.Holds means x := by
  obtain ⟨fields, _ | qs⟩ := q
  · simp [Holds]
  · simp [Holds, holdsOne_iff]

/-- The empty query holds of every record. -/
@[simp] theorem holds_empty : empty.Holds means x := by
  rw [holds_iff]
  simp [empty]

theorem holds_single (key : String) (c : Constraint) :
    (single key c).Holds means x ↔ means key c x := by
  rw [holds_iff]
  simp [single, OrderedMap.singleton]

theorem holds_anyOf {qs : List Query} :
    (anyOf qs).Holds means x ↔ ∃ a ∈ qs, a.Holds means x := by
  rw [holds_iff]
  simp [anyOf]

/-- **Merging is conjunction** for queries that share no key, as long as only one of them has
alternatives. -/
theorem holds_update {a b : Query} (hkeys : a.Disjoint b)
    (halt : a.alternatives = none ∨ b.alternatives = none) :
    (a.update b).Holds means x ↔ a.Holds means x ∧ b.Holds means x := by
  rw [holds_iff, holds_iff, holds_iff, entries_update hkeys, List.forall_mem_append,
    alternatives_update]
  rcases halt with ha | hb
  · rw [ha]
    constructor
    · rintro ⟨⟨hfa, hfb⟩, hqs⟩
      exact ⟨⟨hfa, by simp⟩, hfb, fun qs h => hqs qs (by simp [h])⟩
    · rintro ⟨⟨hfa, -⟩, hfb, hqs⟩
      exact ⟨⟨hfa, hfb⟩, fun qs h => hqs qs (by simpa using h)⟩
  · rw [hb]
    constructor
    · rintro ⟨⟨hfa, hfb⟩, hqs⟩
      exact ⟨⟨hfa, fun qs h => hqs qs (by simp [h])⟩, hfb, by simp⟩
    · rintro ⟨⟨hfa, hqs⟩, hfb, -⟩
      exact ⟨⟨hfa, hfb⟩, fun qs h => hqs qs (by simpa using h)⟩

/-- What is left of a query beneath a second one: its own alternatives give way to those of the
second. -/
def beneath (a b : Query) : Query := if b.alternatives.isSome then a.withoutAlternatives else a

theorem beneath_of_alternatives {a b : Query}
    (h : a.alternatives = none ∨ b.alternatives = none) : a.beneath b = a := by
  rcases h with ha | hb
  · rw [beneath]
    split
    · exact ext rfl ha.symm
    · rfl
  · simp [beneath, hb]

theorem fields_beneath (a b : Query) : (a.beneath b).fields = a.fields := by
  rw [beneath]
  split <;> rfl

theorem alternatives_beneath (a b : Query) :
    (a.beneath b).alternatives = none ∨ b.alternatives = none := by
  cases h : b.alternatives with
  | none => exact .inr rfl
  | some qs => exact .inl (by simp [beneath, h, withoutAlternatives])

/-- Only what is left beneath a second query is merged with it. -/
theorem beneath_update (a b : Query) : (a.beneath b).update b = a.update b := by
  refine ext (by rw [fields_update, fields_update, fields_beneath]) ?_
  cases h : b.alternatives with
  | none => rw [beneath_of_alternatives (.inr h)]
  | some qs => simp [h]

/-- Merging is conjunction with what is left beneath the second query. -/
theorem holds_update_beneath {a b : Query} (h : a.Disjoint b) :
    (a.update b).Holds means x ↔ (a.beneath b).Holds means x ∧ b.Holds means x := by
  have hkeys : (a.beneath b).Disjoint b := by
    rwa [Disjoint, fields_beneath]
  rw [← beneath_update, holds_update means x hkeys (alternatives_beneath a b)]

end Meaning

/-! ### Merging several queries -/

/-- The two queries can be merged without loss: they share no key, and one has no alternatives. -/
structure Compatible (a b : Query) : Prop where
  disjoint : a.Disjoint b
  alternatives : a.alternatives = none ∨ b.alternatives = none

/-- The queries of a list merged in their order. -/
def updateAll (q : Query) (ds : List Query) : Query := ds.foldl update q

@[simp] theorem updateAll_nil (q : Query) : q.updateAll [] = q := rfl

@[simp] theorem updateAll_cons (q d : Query) (ds : List Query) :
    q.updateAll (d :: ds) = (q.update d).updateAll ds := rfl

theorem Disjoint.update {a b c : Query} (ha : a.Disjoint c) (hb : b.Disjoint c) :
    (a.update b).Disjoint c := by
  intro k hk hmem
  rcases mem_keys_update.1 hmem with h | h
  · exact ha k hk h
  · exact hb k hk h

theorem Compatible.update {a b c : Query} (ha : a.Compatible c) (hb : b.Compatible c) :
    (a.update b).Compatible c := by
  refine ⟨ha.disjoint.update hb.disjoint, ?_⟩
  rcases ha.alternatives with ha | hc
  · rcases hb.alternatives with hb | hc
    · exact .inl (by rw [alternatives_update, ha, hb, Option.orElse_eq_orElse]; rfl)
    · exact .inr hc
  · exact .inr hc

/-- Queries that are compatible in pairs stay so when the first two are merged. -/
theorem pairwise_compatible_update {q d : Query} {ds : List Query}
    (h : (q :: d :: ds).Pairwise Compatible) : (q.update d :: ds).Pairwise Compatible := by
  rw [List.pairwise_cons, List.pairwise_cons] at h
  obtain ⟨hq, hd, hds⟩ := h
  exact List.pairwise_cons.2 ⟨fun c hc => (hq c (by simp [hc])).update (hd c hc), hds⟩

/-- Compatible queries are appended field by field. -/
theorem entries_updateAll {q : Query} {ds : List Query} (h : (q :: ds).Pairwise Compatible) :
    (q.updateAll ds).fields.entries = q.fields.entries ++ ds.flatMap (·.fields.entries) := by
  induction ds generalizing q with
  | nil => simp
  | cons d ds ih =>
    have hqd : q.Disjoint d := ((List.pairwise_cons.1 h).1 d (by simp)).disjoint
    rw [updateAll_cons, ih (pairwise_compatible_update h), entries_update hqd, List.append_assoc,
      List.flatMap_cons]

/-- The alternatives of compatible queries are those of the only one that has some. -/
theorem alternatives_updateAll {q : Query} {ds : List Query} (h : (q :: ds).Pairwise Compatible) :
    (q.updateAll ds).alternatives = (q :: ds).findSome? (·.alternatives) := by
  induction ds generalizing q with
  | nil => cases hq : q.alternatives <;> simp [hq]
  | cons d ds ih =>
    have hqd := ((List.pairwise_cons.1 h).1 d (by simp)).alternatives
    rw [updateAll_cons, ih (pairwise_compatible_update h), List.findSome?_cons, List.findSome?_cons,
      List.findSome?_cons, alternatives_update]
    rcases hqd with hq | hd
    · rw [hq]
      cases d.alternatives <;> rfl
    · rw [hd]
      cases q.alternatives <;> rfl

/-- Merging compatible queries is conjunction. -/
theorem holds_updateAll {Record : Type u} (means : String → Constraint → Record → Prop)
    (x : Record) {q : Query} {ds : List Query} (h : (q :: ds).Pairwise Compatible) :
    (q.updateAll ds).Holds means x ↔ q.Holds means x ∧ ∀ d ∈ ds, d.Holds means x := by
  induction ds generalizing q with
  | nil => simp
  | cons d ds ih =>
    have hqd := (List.pairwise_cons.1 h).1 d (by simp)
    rw [updateAll_cons, ih (pairwise_compatible_update h),
      holds_update means x hqd.disjoint hqd.alternatives, List.forall_mem_cons, and_assoc]

/-! ### Choices -/

/-- The queries of which one must hold: the alternatives, or the query itself. -/
def choices (q : Query) : List Query := q.alternatives.getD [q]

/-- The query has fields, and no alternatives. -/
structure Plain (q : Query) : Prop where
  fields_ne : q.fields.isEmpty = false
  alternatives_eq : q.alternatives = none

/-- What the text of one box compiles to: fields only, or alternatives only. There are at least two
alternatives, each of them plain. -/
inductive Simple : Query → Prop
  | fields {q : Query} (h : q.alternatives = none) : Simple q
  | choice {qs : List Query} (hlen : 2 ≤ qs.length) (hqs : ∀ a ∈ qs, a.Plain) : Simple (anyOf qs)

theorem plain_single (key : String) (c : Constraint) : (single key c).Plain :=
  ⟨rfl, rfl⟩

theorem simple_empty : empty.Simple := .fields rfl

theorem simple_single (key : String) (c : Constraint) : (single key c).Simple := .fields rfl

/-- No choice of a simple query has alternatives of its own. -/
theorem Simple.alternatives_of_mem_choices {q a : Query} (hq : q.Simple) (ha : a ∈ q.choices) :
    a.alternatives = none := by
  cases hq with
  | fields h =>
    rw [choices, h, Option.getD_none, List.mem_singleton] at ha
    exact ha ▸ h
  | choice _ hqs => exact (hqs a ha).alternatives_eq

theorem Simple.choices_ne_nil {q : Query} (hq : q.Simple) : q.choices ≠ [] := by
  cases hq with
  | fields h => simp [choices, h]
  | choice hlen _ =>
    rintro rfl
    simp at hlen

/-- A simple query is the disjunction of its choices. -/
theorem Simple.holds_iff_choices {Record : Type u} (means : String → Constraint → Record → Prop)
    (x : Record) {q : Query} (hq : q.Simple) :
    q.Holds means x ↔ ∃ a ∈ q.choices, a.Holds means x := by
  cases hq with
  | fields h => simp [choices, h]
  | choice _ _ => exact holds_anyOf means x

end SearchBox.Query
