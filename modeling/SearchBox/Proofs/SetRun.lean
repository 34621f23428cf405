import Mathlib.Data.List.Induction
import SearchBox.Proofs.Canonical
import SearchBox.Proofs.Refusal

/-!
# Set conditions one after the other

Several conditions may be written on one field. Whatever they are, the field ends in one of two
states, and the first condition decides which. If it asked for an equal array, then that array stays,
and all later conditions are refused (`after_cons_of_exactly`). Otherwise the field has operators, of
each kind the one that was written last (`after_cons_of_ne_exactly`), and conditions that ask for an
equal array are refused. `requests_decided_by_first` puts both together.
-/

namespace SearchBox.SetCondition

/-! ### Requests -/

/-- A condition that is asked for, on items of any kind with a lawful order. -/
structure Request where
  {Item : Type}
  [setItem : SetItem Item]
  [beq : BEq Item]
  [lawful : LawfulSetItem Item]
  mode : SetMode
  items : List Item

namespace Request

attribute [instance] setItem beq lawful

/-- Asks a query for the condition on a field: what it becomes, and whether it accepts. -/
def write (r : Request) (field : String) : Write := SetCondition.apply r.mode none r.items field

/-- The items as scalars. -/
def scalars (r : Request) : List Scalar := SetCondition.scalars r.items

variable (r : Request) {field : String} {q : Query}

/-- On a field without a constraint, an operator is written. -/
theorem write_of_free (hq : field ∉ q.fields.keys) (h : r.mode ≠ .exactly) :
    r.write field q = (q.insert field (.operators (withItems r.mode r.scalars {})), .ok ()) := by
  rw [write, apply_of_ne_exactly h, addOperator_of_not_mem _ hq]
  rfl

/-- On a field without a constraint, an equal array is written. -/
theorem write_of_free_of_exactly (hq : field ∉ q.fields.keys) (h : r.mode = .exactly) :
    r.write field q =
      (q.insert field (.value (.list (SetCondition.scalars (canonical r.items)))), .ok ()) := by
  rw [write, h]
  exact setValue_of_not_mem r.items hq

/-- An equal array stays, and refuses every request. -/
theorem write_of_value {v : Scalar} (hq : q.get? field = some (.value v)) :
    r.write field q = (q, .error conflict) :=
  apply_of_value hq r.mode r.items

/-- Operators are written over, one at a time, and refuse an equal array. -/
theorem write_of_operators {o : Operators} (hq : q.get? field = some (.operators o)) :
    r.write field q =
      if r.mode = .exactly then (q, .error conflict)
      else (q.insert field (.operators (withItems r.mode r.scalars o)), .ok ()) :=
  apply_of_operators hq r.mode r.items

/-- A request that is refused changes nothing. -/
theorem write_eq_of_refused {e : Error} (h : (r.write field q).2 = .error e) :
    (r.write field q).1 = q :=
  isAtomic_apply r.mode none r.items field q e h

/-- No request touches another field, the order of the other fields, or the alternatives. -/
theorem erase_write : (r.write field q).1.erase field = q.erase field := by
  cases h : (r.write field q).2 with
  | error e => rw [r.write_eq_of_refused h]
  | ok _ =>
    have hok : r.write field q = ((r.write field q).1, .ok ()) := Prod.ext rfl h
    obtain ⟨c, hc⟩ := exists_insert_of_apply_eq_ok hok
    rw [hc, Query.erase_insert_self]

end Request

/-! ### Runs -/

/-- The query after requests on one field; those that are refused are passed over. -/
def after (field : String) (q : Query) (rs : List Request) : Query :=
  rs.foldl (fun q r => (r.write field q).1) q

@[simp] theorem after_singleton (field : String) (q : Query) (r : Request) :
    after field q [r] = (r.write field q).1 := rfl

theorem after_concat (field : String) (q : Query) (rs : List Request) (r : Request) :
    after field q (rs ++ [r]) = (r.write field (after field q rs)).1 := by
  simp [after]

/-- The items of the last request of a mode. -/
def lastItems (mode : SetMode) (rs : List Request) : Option (List Scalar) :=
  ((rs.filter fun r => r.mode = mode).getLast?).map Request.scalars

/-- The operators that requests ask for, of each kind the last one. -/
def collected (rs : List Request) : Operators where
  contains := lastItems .containsAll rs
  excludes := lastItems .containsNone rs
  containedIn := lastItems .containedIn rs

theorem lastItems_concat (mode : SetMode) (rs : List Request) (r : Request) :
    lastItems mode (rs ++ [r]) = if r.mode = mode then some r.scalars else lastItems mode rs := by
  rw [lastItems, List.filter_append]
  by_cases h : r.mode = mode
  · simp [h]
  · simp [h, lastItems]

/-- One more request sets the operator of its mode. -/
theorem collected_concat (rs : List Request) (r : Request) :
    collected (rs ++ [r]) = withItems r.mode r.scalars (collected rs) := by
  simp only [collected, lastItems_concat]
  cases r.mode with
  | containsAll => rfl
  | containsNone => rfl
  | containedIn => rfl
  | exactly => rfl

variable {field : String} {q : Query} (first : Request) (rest : List Request)

/-- An equal array that was asked for first stays. -/
theorem after_cons_of_exactly (hq : field ∉ q.fields.keys) (h : first.mode = .exactly) :
    after field q (first :: rest) =
      q.insert field (.value (.list (scalars (canonical first.items)))) := by
  -- The induction follows the run, so the last request is the step.
  induction rest using List.reverseRecOn with
  | nil => rw [after_singleton, first.write_of_free_of_exactly hq h]
  | append_singleton rest r ih =>
    rw [← List.cons_append, after_concat, ih, r.write_of_value (Query.get?_insert_self _ _ _)]

/-- Operators that were asked for are collected, and nothing else is written. -/
theorem after_cons_of_ne_exactly (hq : field ∉ q.fields.keys) (h : first.mode ≠ .exactly) :
    after field q (first :: rest) =
      q.insert field (.operators (collected (first :: rest))) := by
  induction rest using List.reverseRecOn with
  | nil =>
    rw [after_singleton, first.write_of_free hq h, ← List.nil_append [first], collected_concat]
    rfl
  | append_singleton rest r ih =>
    rw [← List.cons_append, after_concat, ih, collected_concat,
      r.write_of_operators (Query.get?_insert_self _ _ _)]
    split
    · rename_i hr
      rw [hr]
      rfl
    · exact Query.insert_insert_self q field _ _

/-- **The first request decides about the whole run.** On a field without a constraint, an equal
array that is asked for first stays, and every later request is refused. After any other first
request the field has operators, of each kind those of the last request, and exactly the requests
for an equal array are refused. A request that is refused changes nothing, and none touches another
field, the order of the other fields, or the alternatives. -/
theorem requests_decided_by_first {field : String} {q : Query} (hq : field ∉ q.fields.keys)
    (first : Request) (rest : List Request) :
    (first.mode = .exactly →
      (∃ items : List first.Item, IsAscending items ∧ (∀ a, a ∈ items ↔ a ∈ first.items) ∧
        (after field q (first :: rest)).get? field = some (.value (.list (scalars items)))) ∧
      ∀ before r later, rest = before ++ r :: later →
        (r.write field (after field q (first :: before))).2 = .error conflict) ∧
    (first.mode ≠ .exactly →
      (after field q (first :: rest)).get? field =
        some (.operators
          { contains := lastItems .containsAll (first :: rest)
            excludes := lastItems .containsNone (first :: rest)
            containedIn := lastItems .containedIn (first :: rest) }) ∧
      ∀ before r later, first :: rest = before ++ r :: later →
        (r.write field (after field q before)).2 =
          if r.mode = .exactly then .error conflict else .ok ()) ∧
    ∀ before r later, first :: rest = before ++ r :: later →
      (∀ e, (r.write field (after field q before)).2 = .error e →
        (r.write field (after field q before)).1 = after field q before) ∧
      (r.write field (after field q before)).1.erase field = (after field q before).erase field := by
  refine ⟨fun h => ⟨?_, ?_⟩, fun h => ⟨?_, ?_⟩, ?_⟩
  · refine ⟨canonical first.items, isAscending_canonical first.items, fun a => mem_canonical, ?_⟩
    rw [after_cons_of_exactly first rest hq h, Query.get?_insert_self]
  · intro before r later _
    rw [after_cons_of_exactly first before hq h, r.write_of_value (Query.get?_insert_self _ _ _)]
  · rw [after_cons_of_ne_exactly first rest hq h, Query.get?_insert_self]
    rfl
  · intro before r later hrun
    cases before with
    | nil =>
      obtain ⟨rfl, -⟩ := List.cons.inj hrun
      rw [if_neg h]
      exact congrArg Prod.snd (first.write_of_free hq h)
    | cons first' before =>
      obtain ⟨rfl, -⟩ := List.cons.inj hrun
      rw [after_cons_of_ne_exactly first before hq h,
        r.write_of_operators (Query.get?_insert_self _ _ _)]
      split <;> rfl
  · exact fun before r later _ => ⟨fun e => r.write_eq_of_refused, r.erase_write⟩

/-- Four requests with items of two kinds, the one for an equal array in the second place and in the
first. -/
theorem requests_decided_by_first_mixed :
    let q : Query := .single "n" (.value (.integer 1))
    let integers : Request := { mode := .containsAll, items := [(3 : Int), 3] }
    let equal : Request := { mode := .exactly, items := [(5 : Int), 2, 5] }
    let labels : Request := { mode := .containsNone, items := ["b", "a"] }
    let others : Request := { mode := .containsAll, items := [(2 : Int)] }
    "c" ∉ q.fields.keys ∧
    (after "c" q [integers, equal, labels, others]).get? "c" =
      some (.operators
        { contains := some [.integer 2], excludes := some [.string "b", .string "a"] }) ∧
    (∃ items : List Int, IsAscending items ∧ (∀ a, a ∈ items ↔ a ∈ [5, 2, 5]) ∧
      (after "c" q [equal, integers, labels, others]).get? "c" =
        some (.value (.list (scalars items)))) ∧
    (labels.write "c" (after "c" q [equal, integers])).2 = .error conflict := by
  intro q integers equal labels others
  have hfree : "c" ∉ q.fields.keys := by decide
  have hoperators := requests_decided_by_first hfree integers [equal, labels, others]
  have hvalue := requests_decided_by_first hfree equal [integers, labels, others]
  refine ⟨hfree, ?_, (hvalue.1 rfl).1, (hvalue.1 rfl).2 [integers] labels [others] rfl⟩
  exact (hoperators.2.1 (by decide)).1

end SearchBox.SetCondition
