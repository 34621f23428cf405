/-!
# Maps in order of insertion

The fields of a query, the boxes of a form and the names of an alias table are all maps from strings
that keep the order in which their keys first came. An `OrderedMap` is its list of entries together
with the proof that no key comes twice, so no operation has a precondition:

* `insert` writes over an entry in place and appends a new one (`keys_insert`, `get?_insert`);
* `erase` takes an entry out and keeps the order of the rest;
* `merge` inserts all entries of a second map in its order;
* `==` compares two maps as functions, so the order does not matter.
-/

namespace SearchBox

universe u

/-- Entries in the order of their first insertion, each key once. -/
structure OrderedMap (α : Type u) where
  entries : List (String × α) := []
  nodup_keys : (entries.map Prod.fst).Nodup := by simp

namespace OrderedMap

variable {α : Type u}

/-- Two maps with the same list of entries are the same map. -/
@[ext] theorem ext {a b : OrderedMap α} (h : a.entries = b.entries) : a = b := by
  cases a; cases b; cases h; rfl

/-- The map without entries. -/
def empty : OrderedMap α := {}

instance : EmptyCollection (OrderedMap α) := ⟨empty⟩

instance : Inhabited (OrderedMap α) := ⟨empty⟩

/-- The keys, in order. -/
def keys (m : OrderedMap α) : List String := m.entries.map Prod.fst

/-- The number of entries. -/
def size (m : OrderedMap α) : Nat := m.entries.length

/-- The map has no entry. -/
def isEmpty (m : OrderedMap α) : Bool := m.entries.isEmpty

/-- What stands under a key. -/
def get? (m : OrderedMap α) (k : String) : Option α := m.entries.lookup k

/-- Some entry has the key. -/
def contains (m : OrderedMap α) (k : String) : Bool := m.keys.contains k

/-! ### Insertion -/

/-- Writes an entry into a list of entries: over the first entry with its key, else at the end. -/
def put (k : String) (v : α) : List (String × α) → List (String × α)
  | [] => [(k, v)]
  | e :: es => if e.1 = k then (k, v) :: es else e :: put k v es

theorem keys_put (k : String) (v : α) (es : List (String × α)) :
    (put k v es).map Prod.fst =
      if k ∈ es.map Prod.fst then es.map Prod.fst else es.map Prod.fst ++ [k] := by
  induction es with
  | nil => simp [put]
  | cons e es ih =>
    by_cases h : e.1 = k
    · simp [put, h]
    · simp only [put, h, ↓reduceIte, List.map_cons, List.mem_cons, ih, Ne.symm h, false_or]
      split <;> simp

theorem nodup_put {k : String} {v : α} {es : List (String × α)} (h : (es.map Prod.fst).Nodup) :
    ((put k v es).map Prod.fst).Nodup := by
  rw [keys_put]
  split
  · exact h
  · rename_i hk
    refine List.nodup_append.2 ⟨h, by simp, ?_⟩
    intro a ha b hb hab
    simp only [List.mem_singleton] at hb
    subst hb hab
    exact hk ha

theorem lookup_put (k j : String) (v : α) (es : List (String × α)) :
    (put k v es).lookup j = if j = k then some v else es.lookup j := by
  induction es with
  | nil => by_cases h : j = k <;> simp [put, List.lookup_cons, beq_eq_false_iff_ne.2, h]
  | cons e es ih =>
    obtain ⟨e, w⟩ := e
    by_cases he : e = k
    · subst he
      by_cases h : j = e <;> simp [put, List.lookup_cons, beq_eq_false_iff_ne.2, h]
    · by_cases h : j = e
      · subst h
        simp [put, he]
      · simp [put, he, List.lookup_cons, beq_eq_false_iff_ne.2 h, ih]

/-- Writes `v` under `k`: in place if the key is there, else at the end. -/
def insert (m : OrderedMap α) (k : String) (v : α) : OrderedMap α :=
  ⟨put k v m.entries, nodup_put m.nodup_keys⟩

/-- The keys after an insertion: the new key comes last. -/
theorem keys_insert (m : OrderedMap α) (k : String) (v : α) :
    (m.insert k v).keys = if k ∈ m.keys then m.keys else m.keys ++ [k] :=
  keys_put k v m.entries

/-- What an insertion changes: the entry of its key and no other. -/
theorem get?_insert (m : OrderedMap α) (k j : String) (v : α) :
    (m.insert k v).get? j = if j = k then some v else m.get? j :=
  lookup_put k j v m.entries

@[simp] theorem get?_insert_self (m : OrderedMap α) (k : String) (v : α) :
    (m.insert k v).get? k = some v := by
  simp [get?_insert]

/-- The map with one entry. -/
def singleton (k : String) (v : α) : OrderedMap α := ⟨[(k, v)], by simp⟩

@[simp] theorem get?_empty (k : String) : (empty : OrderedMap α).get? k = none := rfl

@[simp] theorem get?_singleton_self (k : String) (v : α) : (singleton k v).get? k = some v := by
  simp [singleton, get?]

/-! ### Removal and merging -/

/-- The map without the entry of `k`. -/
def erase (m : OrderedMap α) (k : String) : OrderedMap α :=
  ⟨m.entries.filter (·.1 != k),
    List.Nodup.sublist (List.Sublist.map Prod.fst (List.filter_sublist)) m.nodup_keys⟩

/-- The entries of `b` inserted into `a`, in their order. -/
def merge (a b : OrderedMap α) : OrderedMap α :=
  b.entries.foldl (fun m e => m.insert e.1 e.2) a

/-- The entries of a list inserted in their order, so that a later one overwrites an earlier one. -/
def ofList (es : List (String × α)) : OrderedMap α :=
  es.foldl (fun m e => m.insert e.1 e.2) empty

@[simp] theorem merge_empty (a : OrderedMap α) : a.merge empty = a := rfl

/-! ### Comparison -/

/-- The maps have the same keys, with equal values under each. -/
def beq [BEq α] (a b : OrderedMap α) : Bool :=
  a.size == b.size && a.entries.all fun e =>
    match b.get? e.1 with
    | some v => e.2 == v
    | none => false

instance [BEq α] : BEq (OrderedMap α) := ⟨beq⟩

end OrderedMap

end SearchBox
