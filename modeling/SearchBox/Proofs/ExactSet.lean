import SearchBox.Kind
import SearchBox.Proofs.Canonical
import SearchBox.Proofs.Enumerate
import SearchBox.Proofs.SetCondition

/-!
# Equal arrays as sets

An equal array is stored in canonical form, so what is written depends on the set of the items
alone. A column with a derived value is different: its value is derived from the list as it was
given. Lists with the same members have the same outcome exactly if their derived values agree, so a
column is as good as the array for all lists exactly if its value does not change when the items are
put in canonical form (`apply_exactly_congr_iff`). The integers that are typed into a box arrive in
that form, whatever the column (`Kind.compileSet_eq_of_denoted`).
-/

namespace SearchBox

namespace SetCondition

variable {α : Type}

/-- The lists stand for the same set: each has the items of the other, in any order and number. -/
def SameSet (items items' : List α) : Prop := ∀ a, a ∈ items ↔ a ∈ items'

theorem sameSet_iff_subset {items items' : List α} :
    SameSet items items' ↔ items ⊆ items' ∧ items' ⊆ items := by
  constructor
  · intro h
    exact ⟨fun a => (h a).1, fun a => (h a).2⟩
  · rintro ⟨h, h'⟩ a
    exact ⟨fun ha => h ha, fun ha => h' ha⟩

instance [DecidableEq α] (items items' : List α) : Decidable (SameSet items items') :=
  decidable_of_iff _ sameSet_iff_subset.symm

variable [SetItem α] [BEq α]

/-- Two lists write the same into a column if and only if the values derived from them agree. -/
theorem apply_exactly_some_eq_iff (c : DerivedColumn α) (items items' : List α) (field : String)
    (q : Query) :
    apply .exactly (some c) items field q = apply .exactly (some c) items' field q ↔
      c.derive items = c.derive items' := by
  constructor
  · intro h
    have hq : q.insert c.field (.value (c.derive items)) =
        q.insert c.field (.value (c.derive items')) := congrArg Prod.fst h
    have hvalue := congrArg (·.get? c.field) hq
    simpa using hvalue
  · intro h
    rw [apply, apply, h]

variable [LawfulSetItem α]

theorem sameSet_canonical (items : List α) : SameSet items (canonical items) :=
  fun _ => mem_canonical.symm

/-- Without a column, only the set of the items counts. -/
theorem apply_exactly_none_congr {items items' : List α} (h : SameSet items items')
    (field : String) (q : Query) :
    apply .exactly none items field q = apply .exactly none items' field q := by
  rw [apply, apply, setValue, setValue, canonical_eq_iff.2 h]

/-- **When an equal array is a set.** Two lists with the same members have the same outcome, on
every field and every query, exactly if the column, if there is one, has the same value for both. So
a column has that property for all lists exactly if its value is always that of the canonical form.
-/
theorem apply_exactly_congr_iff (column : Option (DerivedColumn α)) :
    (∀ items items', SameSet items items' → ∀ field q,
      (apply .exactly column items field q = apply .exactly column items' field q ↔
        ∀ c ∈ column, c.derive items = c.derive items')) ∧
    ((∀ items items', SameSet items items' → ∀ field q,
        apply .exactly column items field q = apply .exactly column items' field q) ↔
      ∀ c ∈ column, ∀ items, c.derive items = c.derive (canonical items)) := by
  have heach : ∀ items items', SameSet items items' → ∀ field q,
      (apply .exactly column items field q = apply .exactly column items' field q ↔
        ∀ c ∈ column, c.derive items = c.derive items') := by
    intro items items' h field q
    cases column with
    | none => simpa using apply_exactly_none_congr h field q
    | some c => simpa using apply_exactly_some_eq_iff c items items' field q
  refine ⟨heach, fun hall c hc items => ?_, fun hderive items items' h field q => ?_⟩
  · have hset := sameSet_canonical items
    exact (heach _ _ hset "" .empty).1 (hall _ _ hset "" .empty) c hc
  · refine (heach items items' h field q).2 fun c hc => ?_
    rw [hderive c hc items, hderive c hc items', canonical_eq_iff.2 h]

/-- Items in another order have the same product, and the same array. -/
theorem apply_exactly_congr_iff_reordered :
    let items : List Int := [3, 1, 2, 1]
    let items' : List Int := [3, 2, 1, 1]
    let column : DerivedColumn Int := ⟨"rad", DerivedColumn.product⟩
    SameSet items items' ∧
      apply .exactly (some column) items "primes" .empty =
        apply .exactly (some column) items' "primes" .empty ∧
      apply .exactly none items "primes" .empty = apply .exactly none items' "primes" .empty := by
  intro items items' column
  have h : SameSet items items' := by decide
  refine ⟨h, ((apply_exactly_congr_iff (some column)).1 _ _ h "primes" .empty).2 ?_,
    ((apply_exactly_congr_iff none).1 _ _ h "primes" .empty).2 nofun⟩
  rintro c ⟨⟩
  rfl

/-- A repeated item changes the product, though not the set. -/
theorem not_apply_exactly_congr :
    let items : List Int := [2, 2]
    let items' : List Int := [2]
    let column : DerivedColumn Int := ⟨"rad", DerivedColumn.product⟩
    SameSet items items' ∧
      apply .exactly (some column) items "primes" .empty =
        (.single "rad" (.value (.integer 4)), .ok ()) ∧
      apply .exactly (some column) items "primes" .empty ≠
        apply .exactly (some column) items' "primes" .empty := by
  intro items items' column
  refine ⟨by decide, rfl, ?_⟩
  rw [ne_eq, apply_exactly_some_eq_iff]
  intro h
  cases (h : Scalar.integer 4 = .integer 2)

end SetCondition

/-! ### Typed integers -/

/-- Texts that stand for the same integers make the same condition, also in a column, as long as
both are within the cap. -/
theorem Kind.compileSet_eq_of_denoted {most : Nat} {text text' : List Char}
    {spans spans' : List Span} {ns ns' : List Int} (h : Span.decompose false text = .ok spans)
    (h' : Span.decompose false text' = .ok spans')
    (hdenoted : Span.denoted none spans = Span.denoted none spans')
    (hns : Span.enumerate (some most) none text = .ok ns)
    (hns' : Span.enumerate (some most) none text' = .ok ns') (mode : SetMode)
    (column : Option (DerivedColumn Int)) (context : Context) (q : Query) :
    compileSet (.integers most) mode column text context q =
      compileSet (.integers most) mode column text' context q := by
  have hlists := (Span.lists_enumerate h hns).1
  have hlists' := (Span.lists_enumerate h' hns').1
  rw [← hdenoted] at hlists'
  simp only [compileSet, hns, hns', hlists.eq hlists']

end SearchBox
