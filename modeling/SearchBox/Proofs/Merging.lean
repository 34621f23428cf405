import SearchBox.Proofs.Registry

/-!
# Merging in groups

Merging two queries is associative (`update_assoc`), although the right one overwrites fields in
place, appends others and replaces the alternatives all at once. So the queries of a list may be
merged with each other first (`updateAll_eq_update`), and the choices of three sides make the same
product in either grouping (`product_assoc`). A run through paired boxes that starts from a merged
query gives the left part merged with the outcome from the right part (`run_pairs_update`).

With the empty query, queries are a monoid, and a merged query is known field by field
(`update_monoid`).
-/

namespace SearchBox

namespace Query

theorem update_assoc (a b c : Query) : (a.update b).update c = a.update (b.update c) := by
  refine ext (OrderedMap.merge_assoc a.fields b.fields c.fields) ?_
  rw [alternatives_update, alternatives_update, alternatives_update, alternatives_update]
  -- The last of the three that has alternatives gives them.
  cases c.alternatives <;> cases b.alternatives <;> rfl

instance : Std.Associative update := ⟨update_assoc⟩

/-- Queries may be merged with each other before they are merged into another one. -/
theorem updateAll_eq_update (q : Query) (ds : List Query) :
    q.updateAll ds = q.update (empty.updateAll ds) :=
  calc q.updateAll ds = (q.update empty).updateAll ds := by rw [update_empty]
    _ = q.update (empty.updateAll ds) := List.foldl_assoc

/-- **Queries with merging are a monoid.** Merging is associative, and the empty query is neutral on
both sides; this is equality of queries, so the order of the fields and the alternatives agree as
well. In a merged query no key comes twice. It has the keys of the first query in their order, with
the constraints of the second one where that has the key, and then the other fields of the second
one in their order. Its alternatives are those of the second one if that has some. -/
theorem update_monoid (a b c : Query) :
    (a.update b).update c = a.update (b.update c) ∧
      empty.update a = a ∧ a.update empty = a ∧
      (a.update b).fields.keys.Nodup ∧
      (a.update b).fields.entries =
        a.fields.entries.map (fun e => (e.1, (b.get? e.1).getD e.2)) ++
          b.fields.entries.filter (fun e => e.1 ∉ a.fields.keys) ∧
      (a.update b).alternatives = b.alternatives.or a.alternatives := by
  refine ⟨update_assoc a b c, empty_update a, update_empty a, (a.update b).fields.nodup_keys,
    OrderedMap.entries_merge a.fields b.fields, ?_⟩
  rw [alternatives_update]
  cases b.alternatives <;> rfl

end Query

namespace Conjunction

/-- The choices of three sides make the same product in either grouping. -/
theorem product_assoc (ls rs ts : List Query) :
    product (product ls rs) ts = product ls (product rs ts) := by
  have hcomp : ∀ a b : Query, (a.update b).update = a.update ∘ b.update := fun a b =>
    funext (Query.update_assoc a b)
  simp only [product, List.flatMap_assoc, List.flatMap_map, List.map_flatMap, List.map_map, hcomp]

/-- Joined alternatives may be absorbed before or after a merge from the left. -/
theorem absorb_update (q a : Query) (cs : List Query) :
    absorb (q.update a) cs = q.update (absorb a cs) := by
  rw [absorb_eq_update, absorb_eq_update a, Query.update_assoc]

/-- A pair does not read the query that it is merged into. -/
theorem call_update_left {form form' : Form} {first second : Side} {a d : Query}
    (h : call form a first second = ⟨form', d, .ok ()⟩) (q : Query) :
    call form (q.update a) first second = ⟨form', q.update d, .ok ()⟩ := by
  obtain ⟨mid, l, r, cs, hleft, hright, hcombine, rfl⟩ := call_eq_ok.1 h
  exact call_eq_ok.2 ⟨mid, l, r, cs, hleft, hright, hcombine, (absorb_update q a cs).symm⟩

end Conjunction

/-- **A run through pairs does not read the query that it is merged into**, whichever keys the pairs
share with it and with each other. -/
theorem Registry.Turn.run_pairs_update {ps : List (Entry × Entry)} {form form' : Form}
    {a d : Query} (h : run form a (ps.map fun p => pair p.1 p.2) = ⟨form', d, .ok ()⟩)
    (q : Query) :
    run form (q.update a) (ps.map fun p => pair p.1 p.2) = ⟨form', q.update d, .ok ()⟩ := by
  -- Every pair changes the form and the query, so both are general in the induction.
  induction ps generalizing form a with
  | nil =>
    cases h
    rfl
  | cons p ps ih =>
    obtain ⟨mid, a', hcall, hrun⟩ := run_cons_eq_ok.1 h
    exact run_cons_eq_ok.2 ⟨mid, q.update a', Conjunction.call_update_left hcall q, ih hrun⟩

end SearchBox
