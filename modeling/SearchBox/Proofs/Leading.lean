import Mathlib.Data.List.Nodup
import SearchBox.Proofs.Numeral
import SearchBox.Proofs.OrderedMap
import SearchBox.Proofs.Sequence

/-!
# The condition on a whole array

A group such as `[1,2-4]` asks for one element with each of its items (`Item`), and of the array as a
whole that the exact values be in it, and one element in the first interval. What it asks of the whole
is found among the elements that it asks for one by one (`whole_metByArray`), so that condition rules
out no array (`compilePart_group`). This holds in whatever sense an element meets an interval.
-/

namespace SearchBox

open Text

/-! ### Keys of elements -/

theorem Sequence.toList_elementKey (key : String) (i : Int) :
    (elementKey key i).toList = key.toList ++ '.' :: Number.decimal i := by
  simp [elementKey, Number.decimalText]

theorem Sequence.elementKey_injective (key : String) : Function.Injective (elementKey key) := by
  intro i j h
  have htext := congrArg String.toList h
  rw [toList_elementKey, toList_elementKey, List.append_cancel_left_eq, List.cons.injEq] at htext
  exact Number.decimal_injective htext.2

theorem Sequence.elementKey_ne_self (key : String) (i : Int) : elementKey key i ≠ key := by
  intro h
  have htext := congrArg String.toList h
  rw [toList_elementKey] at htext
  simp at htext

/-! ### What elements and arrays meet -/

section Meaning

variable (meets : Operators → Scalar → Prop)

/-- An element meets a constraint: it is the value, or it meets the operators in the given sense. -/
def Constraint.MetBy : Constraint → Scalar → Prop
  | value v, x => x = v
  | operators o, x => meets o x

/-- An array meets operators: it has all of the values, and some element meets the operators on an
element. Of the other operators none is present. -/
structure Operators.MetByArray (o : Operators) (xs : List Scalar) : Prop where
  eq_only : o = { all := o.all, element := o.element }
  all : ∀ vs ∈ o.all, ∀ v ∈ vs, v ∈ xs
  element : ∀ e ∈ o.element, ∃ x ∈ xs, meets e x

end Meaning

namespace Sequence

/-! ### Items -/

/-- What an item asks of its element. Spaces are dropped, and the part before a separator is never
empty. -/
inductive Item (e : Element) (token : List Char) : Constraint → Prop
  | value {v : Scalar} (hsplit : Token.split? true (erase ' ' token) = none)
    (hv : e.reader (erase ' ' token) = .ok v) : Item e token (.value v)
  | atLeast {s : Token.Split} {low : Scalar} (hsplit : Token.split? true (erase ' ' token) = some s)
    (hlow : e.reader s.low = .ok low) (hempty : s.high = []) : Item e token (.range (some low) none)
  | interval {s : Token.Split} {low high : Scalar}
    (hsplit : Token.split? true (erase ' ' token) = some s) (hlow : e.reader s.low = .ok low)
    (hne : s.high ≠ []) (hhigh : e.reader s.high = .ok high) :
    Item e token (.range (some low) (some high))

variable {e : Element} {token : List Char} {c : Constraint}

theorem item_iff (key : String) (h : ',' ∉ token) :
    Item e token c ↔ constraintOf e.reader key token = .ok c := by
  rw [constraintOf_of_not_mem _ _ h, Range.ofPiece, Range.Style.plain]
  cases hsplit : Token.split? true (erase ' ' token) with
  | none =>
    rw [map_eq_ok]
    constructor
    · intro hitem
      cases hitem with
      | value _ hv => exact ⟨_, hv, rfl⟩
      | atLeast hsome | interval hsome =>
        rw [hsplit] at hsome
        cases hsome
    · rintro ⟨v, hv, rfl⟩
      exact .value hsplit hv
  | some s =>
    have hlow := Range.boundOf_of_ne_nil e.reader (Token.low_ne_nil_of_split? hsplit)
    dsimp only
    rw [Range.intervalOf, hlow, bind_eq_ok]
    constructor
    · intro hitem
      cases hitem with
      | value hnone =>
        rw [hsplit] at hnone
        cases hnone
      | atLeast hsome hv hempty =>
        cases hsplit.symm.trans hsome
        exact ⟨_, map_eq_ok.2 ⟨_, hv, rfl⟩, by rw [hempty]; rfl⟩
      | interval hsome hv hne hw =>
        cases hsplit.symm.trans hsome
        exact ⟨_, map_eq_ok.2 ⟨_, hv, rfl⟩, by rw [Range.boundOf_of_ne_nil _ hne, hw]; rfl⟩
    · rintro ⟨low, hbound, hc⟩
      obtain ⟨v, hv, rfl⟩ := map_eq_ok.1 hbound
      obtain ⟨high, hw, rfl⟩ := map_eq_ok.1 hc
      by_cases hempty : s.high = []
      · rw [hempty] at hw
        cases hw
        exact .atLeast hsplit hv hempty
      · rw [Range.boundOf_of_ne_nil _ hempty] at hw
        obtain ⟨w, hhigh, rfl⟩ := map_eq_ok.1 hw
        exact .interval hsplit hv hempty hhigh

namespace Leading

variable {meets : Operators → Scalar → Prop} {xs : List Scalar} {cs : List Constraint}

/-! ### The condition on the array -/

/-- The values that are asked for as elements of the array. -/
def exactValues (e : Element) (cs : List Constraint) : List Scalar :=
  (cs.filterMap Constraint.value?).filter e.isExact

theorem mem_of_mem_exactValues {v : Scalar} (h : v ∈ exactValues e cs) : .value v ∈ cs := by
  obtain ⟨c, hc, hv⟩ := List.mem_filterMap.1 (List.mem_filter.1 h).1
  cases c with
  | value w =>
    cases hv
    exact hc
  | operators o => cases hv

theorem whole_eq (e : Element) (cs : List Constraint) : whole e cs =
    { all := (if (exactValues e cs).isEmpty then none else some (exactValues e cs)),
      element := cs.findSome? Constraint.operators? } := rfl

theorem isEmpty_whole : (whole e cs).isEmpty = true ↔
    exactValues e cs = [] ∧ cs.findSome? Constraint.operators? = none := by
  have hempty (all : Option (List Scalar)) (element : Option Operators) :
      Operators.isEmpty { all, element } = (all.isNone && element.isNone) := by
    cases all <;> cases element <;> rfl
  rw [whole_eq, hempty, Bool.and_eq_true, Option.isNone_iff_eq_none, Option.isNone_iff_eq_none]
  cases exactValues e cs <;> simp

/-- **An array has what is asked of it as a whole, if for every item some element is as asked.** -/
theorem whole_metByArray (h : ∀ c ∈ cs, ∃ x ∈ xs, c.MetBy meets x) :
    (whole e cs).MetByArray meets xs where
  eq_only := rfl
  all := by
    intro vs hvs v hv
    have hall : vs = exactValues e cs := by
      rw [whole_eq] at hvs
      dsimp only at hvs
      split at hvs
      · cases hvs
      · exact (Option.some.inj hvs).symm
    obtain ⟨x, hx, rfl⟩ := h _ (mem_of_mem_exactValues (hall ▸ hv))
    exact hx
  element := by
    intro o ho
    obtain ⟨c, hc, hco⟩ := List.exists_of_findSome?_eq_some ho
    cases c with
    | value v => cases hco
    | operators o' =>
      cases hco
      exact h _ hc

/-! ### The conditions of a group -/

variable (l : Leading) (key : String)

/-- The conditions on the elements, one for each item, in order. -/
def places (cs : List Constraint) : List (String × Constraint) :=
  cs.zipIdx.map fun (c, i) => (elementKey key (i + l.shift), c)

theorem mem_places {k : String} : (k, c) ∈ l.places key cs ↔
    ∃ i : Nat, cs[i]? = some c ∧ elementKey key (i + l.shift) = k := by
  simp only [places, List.mem_map, Prod.mk.injEq, Prod.exists, List.mk_mem_zipIdx_iff_getElem?]
  constructor
  · rintro ⟨c, i, hc, hk, rfl⟩
    exact ⟨i, hc, hk⟩
  · rintro ⟨i, hc, hk⟩
    exact ⟨c, i, hc, hk, rfl⟩

theorem nodup_keys_places (cs : List Constraint) : ((l.places key cs).map Prod.fst).Nodup := by
  have hkeys : (l.places key cs).map Prod.fst =
      (cs.zipIdx.map Prod.snd).map fun i : Nat => elementKey key (i + l.shift) := by
    rw [places, List.map_map, List.map_map]
    rfl
  rw [hkeys, List.zipIdx_map_snd]
  refine List.Nodup.map (fun i j h => ?_) List.nodup_range'
  have hsum := elementKey_injective key h
  omega

theorem key_not_mem_places (cs : List Constraint) : key ∉ (l.places key cs).map Prod.fst := by
  intro hmem
  obtain ⟨⟨k, c⟩, hplace, hk⟩ := List.mem_map.1 hmem
  obtain ⟨i, -, hkey⟩ := (l.mem_places key).1 hplace
  exact elementKey_ne_self key _ (hkey.trans hk)

/-- The condition on the array, if anything is asked of it. -/
def arrayFields (e : Element) (key : String) (cs : List Constraint) : List (String × Constraint) :=
  if exactValues e cs = [] ∧ cs.findSome? Constraint.operators? = none then []
  else [(key, .operators (whole e cs))]

theorem ofConstraints_eq (cs : List Constraint) : l.ofConstraints key cs =
    if (whole l.element cs).isEmpty then { fields := .ofList (l.places key cs) }
    else Query.insert { fields := .ofList (l.places key cs) } key
      (.operators (whole l.element cs)) := rfl

theorem alternatives_ofConstraints (cs : List Constraint) :
    (l.ofConstraints key cs).alternatives = none := by
  rw [ofConstraints_eq]
  split <;> rfl

/-- **A group has one condition for each item, in order, and one on the array if anything is asked of
it.** -/
theorem entries_ofConstraints (cs : List Constraint) :
    (l.ofConstraints key cs).fields.entries = l.places key cs ++ arrayFields l.element key cs := by
  have hplaces : (OrderedMap.ofList (l.places key cs)).entries = l.places key cs :=
    OrderedMap.entries_ofList (l.nodup_keys_places key cs)
  rw [ofConstraints_eq, arrayFields]
  by_cases hempty : (whole l.element cs).isEmpty = true
  · rw [if_pos hempty, if_pos (isEmpty_whole.1 hempty), List.append_nil]
    exact hplaces
  · have hkey : key ∉ (OrderedMap.ofList (l.places key cs)).keys := by
      rw [OrderedMap.mem_keys_ofList]
      exact l.key_not_mem_places key cs
    rw [if_neg hempty, if_neg (mt isEmpty_whole.2 hempty), Query.fields_insert,
      OrderedMap.entries_insert_of_not_mem _ hkey, hplaces]

variable {l key}

theorem mem_arrayFields {k : String} (h : (k, c) ∈ arrayFields e key cs) :
    k = key ∧ c = .operators (whole e cs) := by
  unfold arrayFields at h
  split at h
  · cases h
  · exact Prod.mk.inj (List.mem_singleton.1 h)

theorem get?_ofConstraints {k : String} : (l.ofConstraints key cs).get? k = some c ↔
    (k, c) ∈ l.places key cs ∨ (k, c) ∈ arrayFields l.element key cs := by
  rw [Query.get?, OrderedMap.get?_eq_some_iff, entries_ofConstraints, List.mem_append]

/-- Under the key of a place stands what its item asks. -/
theorem get?_ofConstraints_elementKey (i : Nat) :
    (l.ofConstraints key cs).get? (elementKey key (i + l.shift)) = cs[i]? := by
  apply Option.ext
  intro c
  rw [get?_ofConstraints, mem_places]
  constructor
  · rintro (⟨j, hj, hkey⟩ | harray)
    · have hsum := elementKey_injective key hkey
      obtain rfl : j = i := by omega
      exact hj
    · exact absurd (mem_arrayFields harray).1 (elementKey_ne_self key _)
  · exact fun hi => .inl ⟨i, hi, rfl⟩

/-- Under the key itself stands nothing but the condition on the array. -/
theorem eq_of_get?_ofConstraints_key (h : (l.ofConstraints key cs).get? key = some c) :
    c = .operators (whole l.element cs) := by
  rcases get?_ofConstraints.1 h with hplace | harray
  · exact absurd (List.mem_map_of_mem hplace) (l.key_not_mem_places key cs)
  · exact (mem_arrayFields harray).2

/-- A group compiles if and only if all of its items do. -/
theorem compilePart_eq_ok {part : List Char} (hopen : Token.opensBracket part = true) {s : Query} :
    l.compilePart key part = .ok s ↔
      ∃ cs, List.Forall₂ (Item l.element) (pieces ',' (inside part)) cs ∧
        l.ofConstraints key cs = s := by
  have hitems (cs : List Constraint) : List.Forall₂ (Item l.element) (pieces ',' (inside part)) cs ↔
      (pieces ',' (inside part)).mapM (constraintOf l.element.reader key) = .ok cs := by
    have hcomma : ∀ p ∈ pieces ',' (inside part), ',' ∉ p := fun _ => not_mem_of_mem_pieces
    constructor
    · intro h
      refine mapM_of_forall₂ (((List.forall₂_and_left _ _).2 ⟨hcomma, h⟩).imp ?_)
      exact fun p c hp => (item_iff key hp.1).1 hp.2
    · intro h
      refine ((List.forall₂_and_left _ _).2 ⟨hcomma, forall₂_of_mapM h⟩).imp ?_
      exact fun p c hp => (item_iff key hp.1).2 hp.2
  rw [compilePart, if_pos hopen, map_eq_ok]
  exact exists_congr fun cs => and_congr_left' (hitems cs).symm

/-- **The condition on an array rules out nothing.** A group that compiles asks for one element with
each of its items, in order. Of the array as a whole it asks for the exact values among the items, in
order, and for one element in the first interval, each as far as there is any. Whatever it means for
an element to meet an interval: an array whose elements are as asked, place by place, has what is asked
of the whole. -/
theorem compilePart_group {part : List Char} (hopen : Token.opensBracket part = true) {s : Query}
    (h : l.compilePart key part = .ok s) :
    ∃ cs, List.Forall₂ (Item l.element) (pieces ',' (inside part)) cs ∧
      s.alternatives = none ∧
      (let exact := (cs.filterMap Constraint.value?).filter l.element.isExact
       let interval := cs.findSome? Constraint.operators?
       s.fields.entries = (cs.zipIdx.map fun (c, i) => (elementKey key (i + l.shift), c)) ++
        if exact = [] ∧ interval = none then []
        else [(key, .operators
          { all := if exact.isEmpty then none else some exact, element := interval })]) ∧
      ∀ (meets : Operators → Scalar → Prop) (xs : List Scalar),
        (∀ (i : Nat) c, s.get? (elementKey key (i + l.shift)) = some c →
          ∃ x, xs[i]? = some x ∧ c.MetBy meets x) →
        ∀ c, s.get? key = some c → ∃ o, c = .operators o ∧ o.MetByArray meets xs := by
  obtain ⟨cs, hitems, rfl⟩ := (compilePart_eq_ok hopen).1 h
  refine ⟨cs, hitems, l.alternatives_ofConstraints key cs, l.entries_ofConstraints key cs,
    fun meets xs hplaces c hc => ?_⟩
  refine ⟨_, eq_of_get?_ofConstraints_key hc, whole_metByArray fun d hd => ?_⟩
  obtain ⟨i, hi⟩ := List.mem_iff_getElem?.1 hd
  obtain ⟨x, hx, hmet⟩ := hplaces i d ((get?_ofConstraints_elementKey i).trans hi)
  exact ⟨x, List.mem_of_getElem? hx, hmet⟩

/-- A value and an interval from the third place on, and an array that begins as asked from there. -/
theorem compilePart_group_interval :
    let l : Leading := ⟨2, .integer⟩
    let between := Operators.range (some (.integer 2)) (some (.integer 4))
    let meets (o : Operators) (x : Scalar) : Prop := o = between ∧ x = .integer 3
    let asked : List Constraint := [.value (.integer 1), .operators between]
    Token.opensBracket "[1,2-4]".toList = true ∧
    l.compilePart "a" "[1,2-4]".toList = .ok (l.ofConstraints "a" asked) ∧
    (∀ (i : Nat) c, (l.ofConstraints "a" asked).get? (elementKey "a" (i + l.shift)) = some c →
      ∃ x, [.integer 1, .integer 3, .integer 9][i]? = some x ∧ c.MetBy meets x) ∧
    (l.ofConstraints "a" asked).get? "a" =
      some (.operators { all := some [.integer 1], element := some between }) ∧
    Operators.MetByArray meets { all := some [.integer 1], element := some between }
      [.integer 1, .integer 3, .integer 9] := by
  intro l between meets asked
  have hopen : Token.opensBracket "[1,2-4]".toList = true := rfl
  have hcompile : l.compilePart "a" "[1,2-4]".toList = .ok (l.ofConstraints "a" asked) := rfl
  have hplaces (i : Nat) (c : Constraint)
      (hc : (l.ofConstraints "a" asked).get? (elementKey "a" (i + l.shift)) = some c) :
      ∃ x, [.integer 1, .integer 3, .integer 9][i]? = some x ∧ c.MetBy meets x := by
    rw [get?_ofConstraints_elementKey] at hc
    match i, hc with
    | 0, rfl => exact ⟨.integer 1, rfl, rfl⟩
    | 1, rfl => exact ⟨.integer 3, rfl, rfl, rfl⟩
  have harray : (l.ofConstraints "a" asked).get? "a" =
      some (.operators { all := some [.integer 1], element := some between }) := rfl
  obtain ⟨cs, -, -, -, hmet⟩ := compilePart_group hopen hcompile
  obtain ⟨o, ho, hwhole⟩ := hmet meets _ hplaces _ harray
  cases ho
  exact ⟨hopen, hcompile, hplaces, harray, hwhole⟩

end Leading

end Sequence

end SearchBox
