import SearchBox.OrderedMap

/-!
# Insertion and merging as operations on lists

An insertion writes over an entry in place or appends a new one. So a merge keeps the entries of the
left map in their places, with the values of the right map where it has the key, and appends the
other entries of the right map (`entries_merge`); with a map that shares no key it appends all of
them (`entries_merge_of_disjoint`). Merging commutes with insertion into the right map
(`merge_insert`), from which follows that it is associative (`merge_assoc`) and that entries may be
inserted one by one or gathered into a map first (`merge_ofList`).
-/

namespace SearchBox.OrderedMap

universe u

variable {α : Type u}

/-! ### Keys -/

theorem contains_eq_true_iff {m : OrderedMap α} {k : String} :
    m.contains k = true ↔ k ∈ m.keys := by
  simp [contains]

@[simp] theorem keys_empty : (empty : OrderedMap α).keys = [] := rfl

@[simp] theorem entries_empty : (empty : OrderedMap α).entries = [] := rfl

@[simp] theorem keys_singleton (k : String) (v : α) : (singleton k v).keys = [k] := rfl

theorem mem_keys_of_mem {m : OrderedMap α} {e : String × α} (h : e ∈ m.entries) : e.1 ∈ m.keys :=
  List.mem_map_of_mem h

theorem mem_keys_insert {m : OrderedMap α} {k j : String} {v : α} :
    j ∈ (m.insert k v).keys ↔ j = k ∨ j ∈ m.keys := by
  rw [keys_insert]
  split
  · rename_i hk
    constructor
    · exact Or.inr
    · rintro (rfl | hj)
      · exact hk
      · exact hj
  · simp [or_comm]

/-- Nothing stands under a key exactly when no entry has it. -/
theorem get?_eq_none_iff {m : OrderedMap α} {k : String} : m.get? k = none ↔ k ∉ m.keys := by
  unfold get? keys
  induction m.entries with
  | nil => simp
  | cons e es ih =>
    obtain ⟨j, w⟩ := e
    by_cases h : k = j
    · simp [h]
    · simp [List.lookup_cons, beq_eq_false_iff_ne.2 h, h, ih]

/-- A map without entries is the empty map. -/
theorem eq_empty_of_isEmpty {m : OrderedMap α} (h : m.isEmpty = true) : m = empty := by
  apply ext
  simpa [isEmpty] using h

theorem isEmpty_eq_false_of_mem_keys {m : OrderedMap α} {k : String} (h : k ∈ m.keys) :
    m.isEmpty = false := by
  cases hm : m.isEmpty with
  | false => rfl
  | true => simp [eq_empty_of_isEmpty hm] at h

/-! ### Insertion -/

theorem put_of_not_mem {k : String} {v : α} {es : List (String × α)}
    (h : k ∉ es.map Prod.fst) : put k v es = es ++ [(k, v)] := by
  induction es with
  | nil => rfl
  | cons e es ih =>
    simp only [List.map_cons, List.mem_cons, not_or] at h
    simp only [put, if_neg (Ne.symm h.1), ih h.2, List.cons_append]

/-- A second insertion under one key overwrites the first. -/
theorem put_put_self (k : String) (v w : α) (es : List (String × α)) :
    put k w (put k v es) = put k w es := by
  induction es with
  | nil => simp [put]
  | cons e es ih =>
    by_cases h : e.1 = k
    · simp [put, h]
    · simp [put, h, ih]

/-- Insertions under different keys commute when one of the keys is there already. -/
theorem put_comm {k j : String} (v w : α) {es : List (String × α)} (hne : k ≠ j)
    (hk : k ∈ es.map Prod.fst) : put k v (put j w es) = put j w (put k v es) := by
  induction es with
  | nil => simp at hk
  | cons e es ih =>
    by_cases hek : e.1 = k
    · have hej : e.1 ≠ j := fun h => hne (hek.symm.trans h)
      simp [put, hek, hne]
    · simp only [List.map_cons, List.mem_cons, Ne.symm hek, false_or] at hk
      by_cases hej : e.1 = j
      · simp [put, hej, Ne.symm hne]
      · simp [put, hek, hej, ih hk]

theorem put_of_lookup {k : String} {v : α} {es : List (String × α)}
    (h : es.lookup k = some v) : put k v es = es := by
  induction es with
  | nil => simp at h
  | cons e es ih =>
    obtain ⟨j, w⟩ := e
    by_cases hj : j = k
    · subst hj
      simp only [List.lookup_cons, beq_self_eq_true, Option.some.injEq] at h
      simp [put, h]
    · rw [List.lookup_cons, beq_eq_false_iff_ne.2 (Ne.symm hj)] at h
      simp [put, hj, ih h]

/-- The entry with the value that a list of entries has for its key, if it has one. -/
def overwritten (es : List (String × α)) (e : String × α) : String × α :=
  (e.1, (es.lookup e.1).getD e.2)

theorem overwritten_of_not_mem {es : List (String × α)} {e : String × α}
    (h : e.1 ∉ es.map Prod.fst) : overwritten es e = e := by
  have hlookup : es.lookup e.1 = none :=
    List.lookup_eq_none_iff.2 fun f hf =>
      bne_iff_ne.2 fun heq => h (heq ▸ List.mem_map_of_mem hf)
  rw [overwritten, hlookup, Option.getD_none]

theorem map_overwritten_of_disjoint {es fs : List (String × α)}
    (h : ∀ f ∈ fs, f.1 ∉ es.map Prod.fst) : fs.map (overwritten es) = fs := by
  rw [List.map_congr_left fun f hf => overwritten_of_not_mem (h f hf), List.map_id']

theorem map_overwritten_singleton {k : String} {v : α} {fs : List (String × α)}
    (h : k ∉ fs.map Prod.fst) : fs.map (overwritten [(k, v)]) = fs := by
  refine map_overwritten_of_disjoint fun f hf hmem => h ?_
  have heq : f.1 = k := List.mem_singleton.1 hmem
  exact heq ▸ List.mem_map_of_mem hf

/-- To overwrite with several entries is to overwrite with the first and then with the rest, if no
other one has its key. -/
theorem overwritten_cons {e : String × α} {es : List (String × α)} (he : e.1 ∉ es.map Prod.fst)
    (f : String × α) : overwritten (e :: es) f = overwritten es (overwritten [e] f) := by
  obtain ⟨k, v⟩ := e
  obtain ⟨j, w⟩ := f
  by_cases hj : j = k
  · subst hj
    have hone : overwritten [(j, v)] (j, w) = (j, v) := by simp [overwritten]
    rw [hone, overwritten_of_not_mem he]
    simp [overwritten]
  · simp [overwritten, List.lookup_cons, beq_eq_false_iff_ne.2 hj]

theorem put_of_mem {k : String} {v : α} {es : List (String × α)}
    (hnodup : (es.map Prod.fst).Nodup) (hk : k ∈ es.map Prod.fst) :
    put k v es = es.map (overwritten [(k, v)]) := by
  induction es with
  | nil => simp at hk
  | cons e es ih =>
    rw [List.map_cons, List.nodup_cons] at hnodup
    by_cases he : e.1 = k
    -- The rest has no other entry with this key, so it stays as it is.
    · rw [List.map_cons, map_overwritten_singleton (he ▸ hnodup.1)]
      simp [put, overwritten, he]
    · have hone : overwritten [(k, v)] e = e := overwritten_of_not_mem (by simpa using he)
      simp only [List.map_cons, List.mem_cons, Ne.symm he, false_or] at hk
      rw [put, if_neg he, ih hnodup.2 hk, List.map_cons, hone]

/-- A key that is there keeps its place. -/
theorem entries_insert_of_mem {m : OrderedMap α} {k : String} (v : α) (h : k ∈ m.keys) :
    (m.insert k v).entries = m.entries.map (overwritten [(k, v)]) :=
  put_of_mem m.nodup_keys h

/-- A new key comes last. -/
theorem entries_insert_of_not_mem {m : OrderedMap α} {k : String} (v : α) (h : k ∉ m.keys) :
    (m.insert k v).entries = m.entries ++ [(k, v)] :=
  put_of_not_mem h

/-- Inserting what stands there already changes nothing. -/
theorem insert_of_get?_eq_some {m : OrderedMap α} {k : String} {v : α} (h : m.get? k = some v) :
    m.insert k v = m :=
  ext (put_of_lookup h)

theorem insert_insert_self (m : OrderedMap α) (k : String) (v w : α) :
    (m.insert k v).insert k w = m.insert k w :=
  ext (put_put_self k v w m.entries)

theorem insert_comm {m : OrderedMap α} {k j : String} (v w : α) (hne : k ≠ j) (hk : k ∈ m.keys) :
    (m.insert j w).insert k v = (m.insert k v).insert j w :=
  ext (put_comm v w hne hk)

/-- The other entries do not depend on what stands under a key. -/
theorem erase_insert_self (m : OrderedMap α) (k : String) (v : α) :
    (m.insert k v).erase k = m.erase k := by
  apply ext
  show (put k v m.entries).filter (·.1 != k) = m.entries.filter (·.1 != k)
  induction m.entries with
  | nil => simp [put]
  | cons e es ih =>
    by_cases h : e.1 = k
    · simp [put, h]
    · simp [put, h, ih]

/-! ### Inserting several entries -/

/-- The entries of a list inserted one after the other. -/
def insertAll (m : OrderedMap α) (es : List (String × α)) : OrderedMap α :=
  es.foldl (fun m e => m.insert e.1 e.2) m

@[simp] theorem insertAll_nil (m : OrderedMap α) : m.insertAll [] = m := rfl

@[simp] theorem insertAll_cons (m : OrderedMap α) (e : String × α) (es : List (String × α)) :
    m.insertAll (e :: es) = (m.insert e.1 e.2).insertAll es := rfl

theorem ofList_eq_insertAll (es : List (String × α)) : ofList es = empty.insertAll es := rfl

theorem mem_keys_insertAll {m : OrderedMap α} {es : List (String × α)} {j : String} :
    j ∈ (m.insertAll es).keys ↔ j ∈ m.keys ∨ j ∈ es.map Prod.fst := by
  induction es generalizing m with
  | nil => simp
  | cons e es ih =>
    rw [insertAll_cons, ih, mem_keys_insert, List.map_cons, List.mem_cons]
    constructor
    · rintro ((h | h) | h)
      · exact Or.inr (Or.inl h)
      · exact Or.inl h
      · exact Or.inr (Or.inr h)
    · rintro (h | h | h)
      · exact Or.inl (Or.inr h)
      · exact Or.inl (Or.inl h)
      · exact Or.inr h

theorem mem_keys_ofList {es : List (String × α)} {j : String} :
    j ∈ (ofList es).keys ↔ j ∈ es.map Prod.fst := by
  simp [ofList_eq_insertAll, mem_keys_insertAll]

/-- **Old keys keep their places and new ones come last**, both in their order, with the new values
where there are some. -/
theorem entries_insertAll {m : OrderedMap α} {es : List (String × α)}
    (hnodup : (es.map Prod.fst).Nodup) :
    (m.insertAll es).entries =
      m.entries.map (overwritten es) ++ es.filter fun e => e.1 ∉ m.keys := by
  induction es generalizing m with
  | nil => simp [map_overwritten_of_disjoint]
  | cons e es ih =>
    rw [List.map_cons, List.nodup_cons] at hnodup
    have hcons : overwritten (e :: es) = overwritten es ∘ overwritten [e] :=
      funext (overwritten_cons hnodup.1)
    rw [insertAll_cons, ih hnodup.2, hcons, ← List.map_map]
    by_cases he : e.1 ∈ m.keys
    · rw [entries_insert_of_mem e.2 he, keys_insert, if_pos he,
        List.filter_cons_of_neg (by simpa using he)]
    -- The first entry is appended, and no later one overwrites it or is kept back by it.
    · have hnew : es.filter (fun f => f.1 ∉ (m.insert e.1 e.2).keys) =
          es.filter fun f => f.1 ∉ m.keys := by
        refine List.filter_congr fun f hf => ?_
        have hne : f.1 ≠ e.1 := fun h => hnodup.1 (h ▸ List.mem_map_of_mem hf)
        simp [mem_keys_insert, hne]
      rw [entries_insert_of_not_mem e.2 he, hnew, List.filter_cons_of_pos (by simpa using he),
        map_overwritten_singleton he, List.map_append, List.append_assoc, List.map_singleton,
        overwritten_of_not_mem hnodup.1, List.singleton_append]

/-- New keys, all different, come last in the order of the list. -/
theorem entries_insertAll_of_disjoint {m : OrderedMap α} {es : List (String × α)}
    (hnodup : (es.map Prod.fst).Nodup) (h : ∀ e ∈ es, e.1 ∉ m.keys) :
    (m.insertAll es).entries = m.entries ++ es := by
  have hold : m.entries.map (overwritten es) = m.entries := by
    refine map_overwritten_of_disjoint fun e he hmem => ?_
    obtain ⟨f, hf, hfe⟩ := List.mem_map.1 hmem
    exact h f hf (hfe ▸ mem_keys_of_mem he)
  have hnew : (es.filter fun e => e.1 ∉ m.keys) = es :=
    List.filter_eq_self.2 fun e he => by simpa using h e he
  rw [entries_insertAll hnodup, hold, hnew]

/-- An entry whose key is there already may as well be written first. -/
theorem insertAll_insert {m : OrderedMap α} {es : List (String × α)} {k : String} (v : α)
    (hk : k ∈ m.keys) (hes : k ∉ es.map Prod.fst) :
    (m.insertAll es).insert k v = (m.insert k v).insertAll es := by
  induction es generalizing m with
  | nil => rfl
  | cons e es ih =>
    simp only [List.map_cons, List.mem_cons, not_or] at hes
    rw [insertAll_cons, ih (mem_keys_insert.2 (Or.inr hk)) hes.2, insert_comm v e.2 hes.1 hk]
    rfl

/-! ### Merging -/

theorem mem_keys_merge {a b : OrderedMap α} {k : String} :
    k ∈ (a.merge b).keys ↔ k ∈ a.keys ∨ k ∈ b.keys :=
  mem_keys_insertAll

/-- The entries of the left map in their order, with the values of the right one where it has the
key, and then the other entries of the right map in their order. -/
theorem entries_merge (a b : OrderedMap α) :
    (a.merge b).entries = a.entries.map (fun e => (e.1, (b.get? e.1).getD e.2)) ++
      b.entries.filter fun e => e.1 ∉ a.keys :=
  entries_insertAll b.nodup_keys

/-- A key of both maps stands where the left one has it, with the value of the right one. -/
example : ((ofList [("x", 1), ("y", 2)]).merge (ofList [("z", 3), ("x", 4)])).entries =
    [("x", 4), ("y", 2), ("z", 3)] := by
  decide

/-- A map with other keys is appended as it is. -/
theorem entries_merge_of_disjoint {a b : OrderedMap α} (h : ∀ k ∈ b.keys, k ∉ a.keys) :
    (a.merge b).entries = a.entries ++ b.entries :=
  entries_insertAll_of_disjoint b.nodup_keys fun _ he => h _ (mem_keys_of_mem he)

@[simp] theorem empty_merge (b : OrderedMap α) : empty.merge b = b :=
  ext (by simp [entries_merge_of_disjoint])

/-- Writing an entry into a list of different keys and writing it after the whole list come to the
same. -/
theorem insertAll_put (m : OrderedMap α) (k : String) (v : α) {es : List (String × α)}
    (hnodup : (es.map Prod.fst).Nodup) :
    m.insertAll (put k v es) = (m.insertAll es).insert k v := by
  induction es generalizing m with
  | nil => rfl
  | cons e es ih =>
    rw [List.map_cons, List.nodup_cons] at hnodup
    by_cases he : e.1 = k
    -- The rest has no other entry with this key, so the entry may be written before it.
    · have hk : k ∈ (m.insert e.1 e.2).keys := mem_keys_insert.2 (Or.inl he.symm)
      have hes : k ∉ es.map Prod.fst := he ▸ hnodup.1
      rw [put, if_pos he, insertAll_cons, insertAll_cons, insertAll_insert v hk hes, he,
        insert_insert_self]
    · rw [put, if_neg he, insertAll_cons, insertAll_cons, ih _ hnodup.2]

/-- Merging commutes with an insertion into the right map. -/
theorem merge_insert (a b : OrderedMap α) (k : String) (v : α) :
    a.merge (b.insert k v) = (a.merge b).insert k v :=
  insertAll_put a k v b.nodup_keys

/-- Merging commutes with insertions into the right map. -/
theorem merge_insertAll (a b : OrderedMap α) (es : List (String × α)) :
    a.merge (b.insertAll es) = (a.merge b).insertAll es := by
  induction es generalizing b with
  | nil => rfl
  | cons e es ih => rw [insertAll_cons, ih, merge_insert, insertAll_cons]

/-- **Merging is associative**, with the order of the entries. -/
theorem merge_assoc (a b c : OrderedMap α) : (a.merge b).merge c = a.merge (b.merge c) :=
  (merge_insertAll a b c.entries).symm

/-- Entries may be gathered into a map before they are inserted. -/
theorem merge_ofList (a : OrderedMap α) (es : List (String × α)) :
    a.merge (ofList es) = a.insertAll es :=
  merge_insertAll a empty es

/-! ### Look-up -/

/-- **A later entry overwrites an earlier one**, and both overwrite what was there. -/
theorem get?_insertAll (m : OrderedMap α) (es : List (String × α)) (k : String) :
    (m.insertAll es).get? k = (es.reverse.lookup k).or (m.get? k) := by
  induction es generalizing m with
  | nil => rfl
  | cons e es ih =>
    have hlast : [e].lookup k = if k = e.1 then some e.2 else none := lookup_put e.1 k e.2 []
    rw [insertAll_cons, ih, get?_insert, List.reverse_cons, List.lookup_append, hlast,
      Option.or_assoc]
    split <;> rfl

/-- The value of a key is found if no entry has another one for it. -/
theorem get?_ofList_of_mem {es : List (String × α)} {k : String} {v : α} (hmem : (k, v) ∈ es)
    (hall : ∀ e ∈ es, e.1 = k → e.2 = v) : (ofList es).get? k = some v := by
  rw [ofList_eq_insertAll, get?_insertAll, get?_empty, Option.or_none]
  cases hlookup : es.reverse.lookup k with
  | none =>
    have hne := List.lookup_eq_none_iff.1 hlookup (k, v) (List.mem_reverse.2 hmem)
    simp at hne
  | some w =>
    obtain ⟨before, after, hes, -⟩ := List.lookup_eq_some_iff.1 hlookup
    have hw : (k, w) ∈ es := List.mem_reverse.1 (by simp [hes])
    exact congrArg some (hall (k, w) hw rfl)

/-- Where every key comes once, each entry is found under its key. -/
theorem lookup_of_mem {es : List (String × α)} {k : String} {v : α}
    (hnodup : (es.map Prod.fst).Nodup) (h : (k, v) ∈ es) : es.lookup k = some v := by
  induction es with
  | nil => cases h
  | cons e es ih =>
    obtain ⟨j, w⟩ := e
    rw [List.map_cons, List.nodup_cons] at hnodup
    rcases List.mem_cons.1 h with heq | hmem
    · cases heq
      simp
    · have hne : k ≠ j := by
        rintro rfl
        exact hnodup.1 (List.mem_map.2 ⟨_, hmem, rfl⟩)
      rw [List.lookup_cons, beq_eq_false_iff_ne.2 hne]
      exact ih hnodup.2 hmem

theorem get?_eq_some_iff {m : OrderedMap α} {k : String} {v : α} :
    m.get? k = some v ↔ (k, v) ∈ m.entries := by
  constructor
  · intro h
    obtain ⟨before, after, hentries, -⟩ := List.lookup_eq_some_iff.1 h
    simp [hentries]
  · exact lookup_of_mem m.nodup_keys

/-- Entries with different keys make a map as they are. -/
theorem entries_ofList {es : List (String × α)} (hnodup : (es.map Prod.fst).Nodup) :
    (ofList es).entries = es := by
  rw [ofList_eq_insertAll, entries_insertAll_of_disjoint hnodup (by simp), entries_empty,
    List.nil_append]

/-- The order in which entries with different keys are inserted does not change what is found. -/
theorem get?_ofList_of_perm {es es' : List (String × α)} (h : es.Perm es')
    (hnodup : (es.map Prod.fst).Nodup) (k : String) : (ofList es).get? k = (ofList es').get? k := by
  have hnodup' : (es'.map Prod.fst).Nodup := (h.map Prod.fst).nodup_iff.1 hnodup
  apply Option.ext
  intro v
  rw [get?_eq_some_iff, get?_eq_some_iff, entries_ofList hnodup, entries_ofList hnodup', h.mem_iff]

end SearchBox.OrderedMap
