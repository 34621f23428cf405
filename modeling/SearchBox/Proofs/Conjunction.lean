import SearchBox.Conjunction
import SearchBox.Proofs.Box

/-!
# Pairs of boxes

Joining two simple queries gives the product of their choices, unless a left and a right choice
constrain the same key (`absorb_of_combine`, `exists_of_combine_error`). So a pair of boxes compiles
to the conjunction of the two, and the errors for queries that are not simple do not come up.
-/

namespace SearchBox.Conjunction

universe u

/-! ### Products -/

/-- Every left query merged with every right one, the left ones varying slowest. -/
def product (ls rs : List Query) : List Query := ls.flatMap fun a => rs.map a.update

theorem mem_product {ls rs : List Query} {c : Query} :
    c ∈ product ls rs ↔ ∃ a ∈ ls, ∃ b ∈ rs, a.update b = c := by
  simp [product, List.mem_flatMap]

theorem length_product (ls rs : List Query) :
    (product ls rs).length = ls.length * rs.length := by
  induction ls with
  | nil => simp [product]
  | cons a ls ih =>
    have hcons : product (a :: ls) rs = rs.map a.update ++ product ls rs := rfl
    rw [hcons, List.length_append, List.length_map, ih, List.length_cons, Nat.add_mul, Nat.one_mul,
      Nat.add_comm]

@[simp] theorem product_singleton_left (rs : List Query) : product [.empty] rs = rs := by
  have hid : rs.map Query.empty.update = rs.map id :=
    List.map_congr_left fun b _ => Query.empty_update b
  simp [product, hid]

@[simp] theorem product_singleton_right (ls : List Query) : product ls [.empty] = ls := by
  simp [product]

/-- The fields of a product are those of the left choice and then those of the right one. -/
theorem entries_product {ls rs : List Query} (h : ∀ a ∈ ls, ∀ b ∈ rs, a.Disjoint b) :
    (product ls rs).map (·.fields.entries) =
      ls.flatMap fun a => rs.map fun b => a.fields.entries ++ b.fields.entries := by
  induction ls with
  | nil => rfl
  | cons a ls ih =>
    have hcons : product (a :: ls) rs = rs.map a.update ++ product ls rs := rfl
    have ha : (rs.map a.update).map (·.fields.entries) =
        rs.map fun b => a.fields.entries ++ b.fields.entries := by
      rw [List.map_map]
      exact List.map_congr_left fun b hb => Query.entries_update (h a (by simp) b hb)
    rw [hcons, List.map_append, ha, ih fun a' ha' => h a' (by simp [ha']), List.flatMap_cons]

/-! ### Joining -/

theorem join_eq_ok {a b c : Query} (h : join a b = .ok c) : a.Disjoint b ∧ c = a.update b := by
  unfold join at h
  split at h
  · cases h
  · rename_i hfind
    cases h
    refine ⟨fun k hk hak => ?_, rfl⟩
    exact List.find?_eq_none.1 hfind k hk (Query.contains_eq_true_iff.2 hak)

theorem join_eq_error {a b : Query} {e : Error} (h : join a b = .error e) :
    ∃ key, e = .overlap key ∧ key ∈ a.fields.keys ∧ key ∈ b.fields.keys := by
  unfold join at h
  split at h
  · rename_i key hfind
    cases h
    exact ⟨key, rfl, Query.contains_eq_true_iff.1 (List.find?_some hfind),
      List.mem_of_find?_eq_some hfind⟩
  · cases h

theorem joinAll_eq_ok {ls rs cs : List Query} (h : joinAll ls rs = .ok cs) :
    cs = product ls rs ∧ ∀ a ∈ ls, ∀ b ∈ rs, a.Disjoint b := by
  obtain ⟨rows, hrows, rfl⟩ := map_eq_ok.1 h
  have hrow : ∀ a row, rs.mapM (join a) = .ok row → row = rs.map a.update := fun a row hrow =>
    eq_map_of_mapM hrow fun b c hc => (join_eq_ok hc).2
  refine ⟨?_, fun a ha b hb => ?_⟩
  · rw [eq_map_of_mapM hrows hrow]
    rfl
  · obtain ⟨row, -, hrow⟩ := exists_mem_of_mapM hrows ha
    obtain ⟨c, -, hc⟩ := exists_mem_of_mapM hrow hb
    exact (join_eq_ok hc).1

theorem joinAll_eq_error {ls rs : List Query} {e : Error} (h : joinAll ls rs = .error e) :
    ∃ key, e = .overlap key ∧
      ∃ a ∈ ls, ∃ b ∈ rs, key ∈ a.fields.keys ∧ key ∈ b.fields.keys := by
  have hfails : FailsOnly (fun e => ∃ key, e = .overlap key ∧
      ∃ a ∈ ls, ∃ b ∈ rs, key ∈ a.fields.keys ∧ key ∈ b.fields.keys) (joinAll ls rs) := by
    refine FailsOnly.map (.mapM fun a ha => .mapM fun b hb e he => ?_) _
    obtain ⟨key, hkey, hka, hkb⟩ := join_eq_error he
    exact ⟨key, hkey, a, ha, b, hb, hka, hkb⟩
  exact hfails e h

/-! ### Combining simple queries -/

/-- A simple query that asks for something is given as its choices. -/
theorem sides_of_simple {q : Query} (hq : q.Simple) :
    sides q = .ok (if q.isEmpty then [] else q.choices) := by
  cases hq with
  | fields h =>
    unfold sides Query.choices
    simp [h]
  | choice hlen hqs =>
    simp [sides, Query.choices, Query.anyOf, Query.isEmpty, OrderedMap.isEmpty]

theorem choices_of_isEmpty {q : Query} (h : q.isEmpty = true) : q.choices = [.empty] := by
  rw [Query.eq_empty_of_isEmpty h]
  rfl

theorem combine_of_simple {l r : Query} (hl : l.Simple) (hr : r.Simple) :
    combine l r =
      if l.isEmpty then .ok (if r.isEmpty then [] else r.choices)
      else if r.isEmpty then .ok l.choices else joinAll l.choices r.choices := by
  rw [combine, sides_of_simple hl, sides_of_simple hr]
  cases hle : l.isEmpty with
  | true => simp [Except.bind]
  | false => cases hre : r.isEmpty <;> simp [Except.bind, hl.choices_ne_nil, hr.choices_ne_nil]

/-- Combining two simple queries gives the product of their choices, where one that asks for nothing
counts as one choice without fields. No left and right choice share a key then. -/
theorem absorb_of_combine {l r : Query} (hl : l.Simple) (hr : r.Simple) {cs : List Query}
    (h : combine l r = .ok cs) :
    (∀ a ∈ l.choices, ∀ b ∈ r.choices, a.Disjoint b) ∧
      ∀ q, absorb q cs = absorb q (product l.choices r.choices) := by
  rw [combine_of_simple hl hr] at h
  split at h
  -- An empty side is left out of the result, as is its only choice in the product.
  · rename_i hle
    rw [choices_of_isEmpty hle, product_singleton_left]
    refine ⟨fun a ha b _ => List.mem_singleton.1 ha ▸ Query.empty_disjoint b, fun q => ?_⟩
    cases h
    split
    · rename_i hre
      rw [choices_of_isEmpty hre, absorb, absorb, Query.update_empty]
    · rfl
  split at h
  · rename_i hre
    cases h
    rw [choices_of_isEmpty hre, product_singleton_right]
    exact ⟨fun a _ b hb => List.mem_singleton.1 hb ▸ Query.disjoint_empty a, fun _ => rfl⟩
  · obtain ⟨rfl, hdisjoint⟩ := joinAll_eq_ok h
    exact ⟨hdisjoint, fun _ => rfl⟩

/-- Simple queries are combined unless a left and a right choice constrain the same key. -/
theorem exists_of_combine_error {l r : Query} (hl : l.Simple) (hr : r.Simple) {e : Error}
    (h : combine l r = .error e) :
    ∃ key, e = .overlap key ∧
      ∃ a ∈ l.choices, ∃ b ∈ r.choices, key ∈ a.fields.keys ∧ key ∈ b.fields.keys := by
  rw [combine_of_simple hl hr] at h
  split at h
  · cases h
  split at h
  · cases h
  · exact joinAll_eq_error h

/-! ### Absorbing alternatives -/

/-- Alternatives may be gathered into a query of their own before they are merged. -/
theorem absorb_eq_update (q : Query) (cs : List Query) :
    absorb q cs = q.update (absorb .empty cs) := by
  match cs with
  | [] => simp [absorb]
  | [c] => simp [absorb]
  | c :: d :: cs => exact Query.ext rfl rfl

theorem absorb_of_two_le {cs : List Query} (h : 2 ≤ cs.length) : absorb .empty cs = .anyOf cs := by
  match cs, h with
  | c :: d :: cs, _ => rfl

/-- What is absorbed is a disjunction. -/
theorem holds_absorb {Record : Type u} (means : String → Constraint → Record → Prop) (x : Record)
    {cs : List Query} (h : cs ≠ []) :
    (absorb .empty cs).Holds means x ↔ ∃ c ∈ cs, c.Holds means x := by
  match cs, h with
  | [c], _ => simp [absorb]
  | c :: d :: cs, _ =>
    rw [absorb_of_two_le (by simp)]
    exact Query.holds_anyOf means x

/-- A product is the conjunction of the two disjunctions. -/
theorem exists_mem_product_holds {Record : Type u}
    (means : String → Constraint → Record → Prop) (x : Record) {l r : Query} (hl : l.Simple)
    (hr : r.Simple) (h : ∀ a ∈ l.choices, ∀ b ∈ r.choices, a.Disjoint b) :
    (∃ c ∈ product l.choices r.choices, c.Holds means x) ↔ l.Holds means x ∧ r.Holds means x := by
  have hupdate : ∀ a ∈ l.choices, ∀ b ∈ r.choices,
      ((a.update b).Holds means x ↔ a.Holds means x ∧ b.Holds means x) := fun a ha b hb =>
    Query.holds_update means x (h a ha b hb) (.inl (hl.alternatives_of_mem_choices ha))
  rw [hl.holds_iff_choices, hr.holds_iff_choices]
  constructor
  · rintro ⟨c, hc, hholds⟩
    obtain ⟨a, ha, b, hb, rfl⟩ := mem_product.1 hc
    obtain ⟨hax, hbx⟩ := (hupdate a ha b hb).1 hholds
    exact ⟨⟨a, ha, hax⟩, b, hb, hbx⟩
  · rintro ⟨⟨a, ha, hax⟩, b, hb, hbx⟩
    exact ⟨a.update b, mem_product.2 ⟨a, ha, b, hb, rfl⟩, (hupdate a ha b hb).2 ⟨hax, hbx⟩⟩

/-- **Two simple queries are combined to their conjunction.** -/
theorem holds_of_combine {Record : Type u} (means : String → Constraint → Record → Prop)
    (x : Record) {l r : Query} (hl : l.Simple) (hr : r.Simple) {cs : List Query}
    (h : combine l r = .ok cs) :
    (absorb .empty cs).Holds means x ↔ l.Holds means x ∧ r.Holds means x := by
  obtain ⟨hdisjoint, habsorb⟩ := absorb_of_combine hl hr h
  have hne : product l.choices r.choices ≠ [] := by
    rw [← List.length_pos_iff, length_product]
    exact Nat.mul_pos (List.length_pos_iff.2 hl.choices_ne_nil)
      (List.length_pos_iff.2 hr.choices_ne_nil)
  rw [habsorb, holds_absorb means x hne, exists_mem_product_holds means x hl hr hdisjoint]

/-- Combined queries with several choices make one alternative for each left and right choice. -/
theorem exists_anyOf_of_combine {l r : Query} (hl : l.Simple) (hr : r.Simple) {cs : List Query}
    (h : combine l r = .ok cs) (hlen : 2 ≤ l.choices.length * r.choices.length) :
    ∃ qs, absorb .empty cs = .anyOf qs ∧ qs.length = l.choices.length * r.choices.length ∧
      (∀ c ∈ qs, c.alternatives = none) ∧
      qs.map (·.fields.entries) = l.choices.flatMap fun a =>
        r.choices.map fun b => a.fields.entries ++ b.fields.entries := by
  obtain ⟨hdisjoint, habsorb⟩ := absorb_of_combine hl hr h
  refine ⟨product l.choices r.choices, ?_, length_product _ _, fun c hc => ?_,
    entries_product hdisjoint⟩
  · rw [habsorb, absorb_of_two_le]
    rwa [length_product]
  · obtain ⟨a, ha, b, hb, rfl⟩ := mem_product.1 hc
    rw [Query.alternatives_update, hl.alternatives_of_mem_choices ha,
      hr.alternatives_of_mem_choices hb]
    rfl

/-! ### Calls -/

section Calls

variable {form form' : Form} {q q' : Query} {first second : Side}

/-- A pair succeeds when both boxes do and their queries can be combined. -/
theorem call_eq_ok :
    call form q first second = ⟨form', q', .ok ()⟩ ↔
      ∃ mid l r cs, first.box.call form .empty first.args = ⟨mid, l, .ok ()⟩ ∧
        second.box.call mid .empty second.args = ⟨form', r, .ok ()⟩ ∧
        combine l r = .ok cs ∧ q' = absorb q cs := by
  unfold call
  rcases first.box.call form .empty first.args with ⟨mid, l, e | _⟩
  · simp
  rcases hsecond : second.box.call mid .empty second.args with ⟨last, r, e | _⟩
  · simp [hsecond]
  cases hcombine : combine l r with
  | error e => simp [hsecond, hcombine]
  | ok cs =>
    simp only [hsecond, hcombine, Outcome.mk.injEq, and_true]
    constructor
    · rintro ⟨rfl, rfl⟩
      exact ⟨mid, l, r, cs, ⟨rfl, rfl⟩, hsecond, hcombine, rfl⟩
    · rintro ⟨mid', l', r', cs', ⟨rfl, rfl⟩, hsecond', hcombine', rfl⟩
      rw [hsecond] at hsecond'
      cases hsecond'
      cases hcombine.symm.trans hcombine'
      exact ⟨rfl, rfl⟩

/-- A pair fails with the error of one of its boxes, or because their queries cannot be combined. -/
theorem call_eq_error {e : Error} (h : (call form q first second).result = .error e) :
    (first.box.call form .empty first.args).result = .error e ∨
    ∃ mid l, first.box.call form .empty first.args = ⟨mid, l, .ok ()⟩ ∧
      ((second.box.call mid .empty second.args).result = .error e ∨
      ∃ last r, second.box.call mid .empty second.args = ⟨last, r, .ok ()⟩ ∧
        combine l r = .error e) := by
  unfold call at h
  rcases hfirst : first.box.call form .empty first.args with ⟨mid, l, e' | _⟩
  · rw [hfirst] at h
    exact .inl h
  refine .inr ⟨mid, l, rfl, ?_⟩
  rw [hfirst] at h
  rcases hsecond : second.box.call mid .empty second.args with ⟨last, r, e' | _⟩
  · simp only [hsecond] at h
    exact .inl h
  refine .inr ⟨last, r, rfl, ?_⟩
  cases hcombine : combine l r with
  | error e' =>
    simp only [hsecond, hcombine] at h
    cases h
    rfl
  | ok cs =>
    simp only [hsecond, hcombine] at h
    cases h

/-- A pair leaves the texts of all fields but its own two as they are. -/
theorem get?_call_of_ne {other : String} (hfirst : first.box.field? first.args ≠ some other)
    (hsecond : second.box.field? second.args ≠ some other) :
    (call form q first second).form.get? other = form.get? other := by
  have hleft : (first.box.call form .empty first.args).form.get? other = form.get? other :=
    Box.get?_call_of_ne hfirst
  have hright : ∀ mid, (second.box.call mid .empty second.args).form.get? other = mid.get? other :=
    fun mid => Box.get?_call_of_ne hsecond
  unfold call
  rcases hcall : first.box.call form .empty first.args with ⟨mid, l, e | _⟩
  · rwa [hcall] at hleft
  rw [hcall] at hleft
  have h := (hright mid).trans hleft
  rcases hcall' : second.box.call mid .empty second.args with ⟨last, r, e | _⟩
  · simpa only [hcall'] using h
  · cases hcombine : combine l r with
    | error e => simpa only [hcall', hcombine] using h
    | ok cs => simpa only [hcall', hcombine] using h

/-- If a pair of boxes for different fields succeeds, the second box does so alone: it reads the
form that the first one leaves, but finds the same text there. -/
theorem exists_alone_of_call
    (hfields : ∀ field, first.box.field? first.args = some field →
      second.box.field? second.args ≠ some field)
    (h : call form q first second = ⟨form', q', .ok ()⟩) :
    ∃ mid last l r cs, first.box.call form .empty first.args = ⟨mid, l, .ok ()⟩ ∧
      second.box.call form .empty second.args = ⟨last, r, .ok ()⟩ ∧
      combine l r = .ok cs ∧ q' = absorb q cs := by
  obtain ⟨mid, l, r, cs, hleft, hright, hcombine, hq⟩ := call_eq_ok.1 h
  have htyped : second.box.typed? (first.box.call form .empty first.args).form second.args =
      second.box.typed? form second.args := Box.typed?_call_of_ne hfields
  rw [hleft] at htyped
  obtain ⟨last, hlast⟩ := Box.exists_call_congr htyped hright
  exact ⟨mid, last, l, r, cs, hleft, hlast, hcombine, hq⟩

/-- A pair makes the same query from another form with the same two texts. -/
theorem exists_call_congr {last : Form} {d : Query}
    (hfields : ∀ field, first.box.field? first.args = some field →
      second.box.field? second.args ≠ some field)
    (hfirst : first.box.typed? form first.args = first.box.typed? form' first.args)
    (hsecond : second.box.typed? form second.args = second.box.typed? form' second.args)
    (h : call form q first second = ⟨last, d, .ok ()⟩) :
    ∃ last', call form' q first second = ⟨last', d, .ok ()⟩ := by
  obtain ⟨mid, l, r, cs, hleft, hright, hcombine, rfl⟩ := call_eq_ok.1 h
  obtain ⟨mid', hleft'⟩ := Box.exists_call_congr hfirst hleft
  have hmid : ∀ f, second.box.typed? (first.box.call f .empty first.args).form second.args =
      second.box.typed? f second.args := fun f => Box.typed?_call_of_ne hfields
  have hform := hmid form
  have hform' := hmid form'
  rw [hleft] at hform
  rw [hleft'] at hform'
  obtain ⟨last', hright'⟩ :=
    Box.exists_call_congr (hform.trans (hsecond.trans hform'.symm)) hright
  exact ⟨last', call_eq_ok.2 ⟨mid', l, r, cs, hleft', hright', hcombine, rfl⟩⟩

/-- A pair merges into a query what it makes of the empty one. -/
theorem call_update {d : Query} (h : call form .empty first second = ⟨form', d, .ok ()⟩)
    (q : Query) : call form q first second = ⟨form', q.update d, .ok ()⟩ := by
  obtain ⟨mid, l, r, cs, hleft, hright, hcombine, rfl⟩ := call_eq_ok.1 h
  exact call_eq_ok.2 ⟨mid, l, r, cs, hleft, hright, hcombine, (absorb_eq_update q cs).symm⟩

end Calls

/-! ### Pairs of ready-made boxes -/

/-- **A pair compiles to the conjunction of its two boxes.** If it succeeds, so does each box alone
on the same form, and a record satisfies the query exactly if it satisfies both queries of the boxes
alone. When there is more than one way to take a choice on the left and one on the right, the query
has one alternative for each, the left choices varying slowest, with the fields of the left choice
before those of the right one. -/
theorem call_eq_conjunction {Record : Type u} (means : String → Constraint → Record → Prop)
    (k k' : Kind) (p p' : Policy) (args args' : Arguments) (form : Form)
    (hfield : ∀ field, Box.field? ⟨p, k.compile⟩ args = some field →
      Box.field? ⟨p', k'.compile⟩ args' ≠ some field)
    (h : (call form .empty ⟨⟨p, k.compile⟩, args⟩ ⟨⟨p', k'.compile⟩, args'⟩).result = .ok ()) :
    let q := (call form .empty ⟨⟨p, k.compile⟩, args⟩ ⟨⟨p', k'.compile⟩, args'⟩).query
    let left := Box.call ⟨p, k.compile⟩ form .empty args
    let right := Box.call ⟨p', k'.compile⟩ form .empty args'
    let ls := left.query.choices
    let rs := right.query.choices
    left.result = .ok () ∧ right.result = .ok () ∧
      (∀ x, q.Holds means x ↔ left.query.Holds means x ∧ right.query.Holds means x) ∧
      (2 ≤ ls.length * rs.length →
        ∃ qs, q = .anyOf qs ∧ qs.length = ls.length * rs.length ∧
          (∀ c ∈ qs, c.alternatives = none) ∧
          qs.map (·.fields.entries) =
            ls.flatMap fun a => rs.map fun b => a.fields.entries ++ b.fields.entries) := by
  intro q left right ls rs
  obtain ⟨mid, last, l, r, cs, hleft, hright, hcombine, hq⟩ :=
    exists_alone_of_call hfield (Outcome.eq_of_result h)
  have hl : l.Simple := (Box.merges_of_kind p k).simple hleft
  have hr : r.Simple := (Box.merges_of_kind p' k').simple hright
  have hlq : left.query = l := congrArg Outcome.query hleft
  have hrq : right.query = r := congrArg Outcome.query hright
  have hok : left.result = .ok () := congrArg Outcome.result hleft
  have hok' : right.result = .ok () := congrArg Outcome.result hright
  refine ⟨hok, hok', fun x => ?_, fun hlen => ?_⟩
  · rw [show q = absorb .empty cs from hq, hlq, hrq]
    exact holds_of_combine means x hl hr hcombine
  · have hls : ls = l.choices := congrArg Query.choices hlq
    have hrs : rs = r.choices := congrArg Query.choices hrq
    rw [hls, hrs] at hlen ⊢
    rw [show q = absorb .empty cs from hq]
    exact exists_anyOf_of_combine hl hr hcombine hlen

/-- Two values on the left and an open interval on the right make two alternatives. -/
theorem call_eq_conjunction_integers :
    let left : Side := ⟨Kind.integers.box, { field := some "a" }⟩
    let right : Side := ⟨Kind.integers.box, { field := some "b" }⟩
    let form : Form := .ofList [("a", "1,2"), ("b", "3-")]
    let q := (call form .empty left right).query
    (∃ qs, q = .anyOf qs ∧ qs.length = 2) ∧
      ∀ (means : String → Constraint → Nat → Prop) x, q.Holds means x ↔
        (left.box.call form .empty left.args).query.Holds means x ∧
          (right.box.call form .empty right.args).query.Holds means x := by
  intro left right form q
  have h (means : String → Constraint → Nat → Prop) :=
    call_eq_conjunction means .integers .integers Kind.numberPolicy Kind.numberPolicy
      { field := some "a" } { field := some "b" } form (by rintro _ ⟨⟩; decide) rfl
  obtain ⟨qs, hq, hlen, -⟩ := (h fun _ _ _ => True).2.2.2 (by decide)
  exact ⟨⟨qs, hq, hlen⟩, fun means => (h means).2.2.1⟩

/-- A pair fails with an error of the user, with one that a reader of values reports, or because a
left and a right choice share a key. -/
theorem cases_of_call_eq_error {k k' : Kind} (hk : k.UsesTable) (hk' : k'.UsesTable)
    {p p' : Policy} {args args' : Arguments} {form : Form} {q : Query} {e : Error}
    (h : (call form q ⟨⟨p, k.compile⟩, args⟩ ⟨⟨p', k'.compile⟩, args'⟩).result = .error e) :
    (e.isInput = true ∨ k.HandsOn e ∨ k'.HandsOn e) ∨ ∃ mid l last r key,
      Box.call ⟨p, k.compile⟩ form .empty args = ⟨mid, l, .ok ()⟩ ∧
      Box.call ⟨p', k'.compile⟩ mid .empty args' = ⟨last, r, .ok ()⟩ ∧ e = .overlap key ∧
      ∃ a ∈ l.choices, ∃ b ∈ r.choices, key ∈ a.fields.keys ∧ key ∈ b.fields.keys := by
  rcases call_eq_error h with hfirst | ⟨mid, l, hfirst, hsecond | ⟨last, r, hsecond, hcombine⟩⟩
  · exact .inl ((Box.call_blamesUser_or_handsOn hk p form .empty args e hfirst).imp_right .inl)
  · exact .inl ((Box.call_blamesUser_or_handsOn hk' p' mid .empty args' e hsecond).imp_right .inr)
  · obtain ⟨key, he, hshared⟩ := exists_of_combine_error
      ((Box.merges_of_kind p k).simple hfirst) ((Box.merges_of_kind p' k').simple hsecond) hcombine
    exact .inr ⟨mid, l, last, r, key, hfirst, hsecond, he, hshared⟩

/-- **User input never shows a defect of the form**, unless the reader for the values of assignments
reports one. Alone, a box fails with an error of the user or with one of that reader, and otherwise
makes a simple query of the empty one. A pair of boxes can fail in only one more way: when a left and
a right choice constrain the same key. -/
theorem call_errors {k k' : Kind} (hk : k.UsesTable) (hk' : k'.UsesTable) (p p' : Policy)
    (args args' : Arguments) (form : Form) :
    let left := Box.call ⟨p, k.compile⟩ form .empty args
    let right := Box.call ⟨p', k'.compile⟩ left.form .empty args'
    (∀ e, left.result = .error e → e.kind = .misuse → k.HandsOn e) ∧
      (left.result = .ok () → left.query.Simple) ∧
      ∀ q e, (call form q ⟨⟨p, k.compile⟩, args⟩ ⟨⟨p', k'.compile⟩, args'⟩).result = .error e →
        ¬ k.HandsOn e → ¬ k'.HandsOn e →
        (∀ text, e ≠ .misuse text) ∧
        ∀ key, e = .overlap key →
          left.result = .ok () ∧ right.result = .ok () ∧
            ∃ a ∈ left.query.choices, ∃ b ∈ right.query.choices,
              key ∈ a.fields.keys ∧ key ∈ b.fields.keys := by
  intro left right
  refine ⟨fun e he hkind => ?_, fun hok => ?_, fun q e he hnot hnot' => ?_⟩
  · refine (Box.call_blamesUser_or_handsOn hk p form .empty args e he).resolve_left fun hinput => ?_
    simp [Error.isInput, hkind] at hinput
  · exact (Box.merges_of_kind p k).simple (Outcome.eq_of_result hok)
  rcases cases_of_call_eq_error hk hk' he with
    (hinput | hread | hread) | ⟨mid, l, last, r, key, hl, hr, rfl, hshared⟩
  · constructor
    · rintro text rfl
      cases hinput
    · rintro key rfl
      cases hinput
  · exact absurd hread hnot
  · exact absurd hread hnot'
  · refine ⟨by rintro text ⟨⟩, ?_⟩
    rintro key' ⟨⟩
    have hleft' : left = ⟨mid, l, .ok ()⟩ := hl
    have hright' : right = ⟨last, r, .ok ()⟩ := by
      rw [← hr, show mid = left.form from (congrArg Outcome.form hl).symm]
    rw [hleft', hright']
    exact ⟨rfl, rfl, hshared⟩

/-- Two boxes for the same key are refused, and both are to blame; and a reader of values that reports
a defect is the only one to do so. -/
theorem call_errors_overlap :
    let left : Side := ⟨Kind.integers.box, { field := some "a", key := some "n" }⟩
    let right : Side := ⟨Kind.doubles.box, { field := some "b", key := some "n" }⟩
    let form : Form := .ofList [("a", "1"), ("b", "2-3"), ("v", "a1=3")]
    let faulty : Kind := .assignments "a" 0 fun _ => .error (.misuse "no value")
    ((call form .empty left right).result = .error (.overlap "n") ∧
      ∃ a ∈ (left.box.call form .empty left.args).query.choices, "n" ∈ a.fields.keys) ∧
    (faulty.box.call form .empty { field := some "v" }).result = .error (.misuse "no value") ∧
      faulty.HandsOn (.misuse "no value") := by
  intro left right form faulty
  have he : (call form .empty left right).result = .error (.overlap "n") := rfl
  obtain ⟨-, -, herrors⟩ := @call_errors .integers .doubles trivial trivial
    Kind.numberPolicy Kind.numberPolicy left.args right.args form
  obtain ⟨-, -, a, ha, -, -, hkey, -⟩ := (herrors .empty _ he id id).2 "n" rfl
  have hfaulty : (faulty.box.call form .empty { field := some "v" }).result =
      .error (.misuse "no value") := rfl
  have hread := (@call_errors faulty .doubles trivial trivial {} {} { field := some "v" } {} form).1
    _ hfaulty rfl
  exact ⟨⟨he, a, ha, hkey⟩, hfaulty, hread⟩

/-- The error of such a reader comes out, alone and in a pair. -/
theorem not_call_errors :
    let faulty : Kind := .assignments "a" 0 fun _ => .error (.misuse "no value")
    let form : Form := .ofList [("v", "a1=3")]
    let side : Side := ⟨faulty.box, { field := some "v" }⟩
    let other : Side := ⟨Kind.integers.box, { field := some "n" }⟩
    faulty.UsesTable ∧
    (¬ ∀ e, (side.box.call form .empty side.args).result = .error e → e.kind ≠ .misuse) ∧
    ¬ ∀ e, (call form .empty side other).result = .error e → ∀ text, e ≠ .misuse text := by
  intro faulty form side other
  have halone : (side.box.call form .empty side.args).result = .error (.misuse "no value") := rfl
  have hpair : (call form .empty side other).result = .error (.misuse "no value") := rfl
  refine ⟨trivial, fun h => ?_, fun h => ?_⟩
  · exact h _ halone rfl
  · exact h _ hpair _ rfl

end SearchBox.Conjunction
