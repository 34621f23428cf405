import Mathlib.Data.Finset.Card
import Mathlib.Data.Finset.Union
import Mathlib.Data.List.Sort
import SearchBox.Proofs.Canonical
import SearchBox.Proofs.Failure
import SearchBox.Span

/-!
# Enumerating is exact and capped

The spans of a list denote a finite set of integers (`Span.denoted`). A list `Lists` such a set if it
has its members in ascending order. `Span.collect` goes from a list of what was found to a list of
that and of one more span, so a run that succeeds lists all that the spans denote (`lists_run`).

The caps refuse too much in only one way. With allowed integers a run is refused exactly if the set
is too large (`exists_run_of_allowed`). Without them the width of an interval counts in full, even if
its integers were found before, and hence the run is sure to succeed only if the cap covers the
`Span.cost` of the spans (`exists_run_of_cost`).
-/

namespace SearchBox

/-- The list has the members of the set in strictly ascending order. -/
structure Lists (ns : List Int) (D : Finset Int) : Prop where
  ascending : ns.Pairwise (· < ·)
  toFinset_eq : ns.toFinset = D

namespace Lists

variable {ns : List Int} {D : Finset Int}

theorem nil : Lists [] ∅ := ⟨.nil, rfl⟩

theorem of_mem_iff (hns : ns.Pairwise (· < ·)) (h : ∀ n, n ∈ ns ↔ n ∈ D) : Lists ns D := by
  refine ⟨hns, ?_⟩
  ext n
  rw [List.mem_toFinset, h]

theorem mem_iff (h : Lists ns D) {n : Int} : n ∈ ns ↔ n ∈ D := by
  rw [← h.toFinset_eq, List.mem_toFinset]

/-- A set is listed in one way only. -/
theorem eq {ns' : List Int} (h : Lists ns D) (h' : Lists ns' D) : ns = ns' :=
  h.ascending.eq_of_mem_iff h'.ascending fun _ => h.mem_iff.trans h'.mem_iff.symm

theorem length_eq (h : Lists ns D) : ns.length = D.card := by
  have hnodup : ns.Nodup := h.ascending.imp fun hlt => (Int.ne_of_lt hlt)
  rw [← h.toFinset_eq, List.toFinset_card_of_nodup hnodup]

end Lists

namespace Span

/-! ### What spans denote -/

/-- The integers in the span; a reversed interval has none. -/
def integers : Span → Finset Int
  | single n => {n}
  | interval low high => (Finset.range (high - low + 1).toNat).image fun (i : Nat) => low + i

/-- The integers in one of the spans, if they are allowed. -/
def denoted (allowed : Option (List Int)) (spans : List Span) : Finset Int :=
  match allowed with
  | none => spans.toFinset.biUnion integers
  | some ns => spans.toFinset.biUnion integers ∩ ns.toFinset

/-- The number of integers in each of the spans, but one at least for each. -/
def cost : List Span → Nat
  | [] => 0
  | s :: spans => max 1 s.integers.card + cost spans

variable {allowed : Option (List Int)} {cap : Option Nat}

theorem mem_integers {s : Span} {n : Int} : n ∈ s.integers ↔ s.contains n = true := by
  cases s with
  | single m => simp [integers, contains]
  | interval low high =>
    simp only [integers, contains, Finset.mem_image, Finset.mem_range, Bool.and_eq_true,
      decide_eq_true_eq]
    constructor
    · rintro ⟨i, hi, rfl⟩
      exact ⟨by omega, by omega⟩
    · rintro ⟨hlow, hhigh⟩
      exact ⟨(n - low).toNat, by omega, by omega⟩

theorem card_integers (s : Span) : s.integers.card = s.width := by
  cases s with
  | single n => rfl
  | interval low high =>
    have hinj : Function.Injective fun (i : Nat) => low + i := fun i j hij => by
      simp only at hij
      omega
    rw [integers, Finset.card_image_of_injective _ hinj, Finset.card_range, width]

theorem mem_denoted {spans : List Span} {n : Int} :
    n ∈ denoted allowed spans ↔
      (∃ s ∈ spans, s.contains n = true) ∧ ∀ ns ∈ allowed, n ∈ ns := by
  cases allowed with
  | none => simp [denoted, mem_integers]
  | some ns => simp [denoted, mem_integers]

@[simp] theorem denoted_nil : denoted allowed [] = ∅ := by
  ext n
  simp [mem_denoted]

theorem denoted_cons (s : Span) (spans : List Span) :
    denoted allowed (s :: spans) = denoted allowed [s] ∪ denoted allowed spans := by
  ext n
  simp only [Finset.mem_union, mem_denoted, List.exists_mem_cons_iff, List.not_mem_nil, false_and,
    exists_false, or_false, or_and_right]

theorem length_le_cost (spans : List Span) : spans.length ≤ cost spans := by
  induction spans with
  | nil => exact le_rfl
  | cons s spans ih =>
    rw [List.length_cons, cost]
    omega

/-! ### Ascending lists -/

theorem mem_union {xs ys : List Int} {n : Int} : n ∈ union xs ys ↔ n ∈ xs ∨ n ∈ ys := by
  fun_induction union xs ys with
  | case1 ys => simp
  | case2 xs => simp
  | case3 x xs y ys hlt ih =>
    rw [List.mem_cons, ih, List.mem_cons (b := x), or_assoc]
  | case4 x xs y ys _ hlt ih =>
    rw [List.mem_cons, ih, List.mem_cons (b := y), or_left_comm]
  | case5 x xs y ys hle hle' ih =>
    have heq : x = y := le_antisymm (not_lt.1 hle') (not_lt.1 hle)
    rw [List.mem_cons, ih, List.mem_cons, List.mem_cons, ← heq]
    tauto

theorem pairwise_union {xs ys : List Int} (hxs : xs.Pairwise (· < ·)) (hys : ys.Pairwise (· < ·)) :
    (union xs ys).Pairwise (· < ·) := by
  fun_induction union xs ys with
  | case1 ys => exact hys
  | case2 xs => exact hxs
  | case3 x xs y ys hlt ih =>
    obtain ⟨hx, hxs'⟩ := List.pairwise_cons.1 hxs
    refine List.pairwise_cons.2 ⟨fun n hn => ?_, ih hxs' hys⟩
    rcases mem_union.1 hn with hn | hn
    · exact hx n hn
    · rcases List.mem_cons.1 hn with rfl | hn
      · exact hlt
      · exact hlt.trans ((List.pairwise_cons.1 hys).1 n hn)
  | case4 x xs y ys _ hlt ih =>
    obtain ⟨hy, hys'⟩ := List.pairwise_cons.1 hys
    refine List.pairwise_cons.2 ⟨fun n hn => ?_, ih hxs hys'⟩
    rcases mem_union.1 hn with hn | hn
    · rcases List.mem_cons.1 hn with rfl | hn
      · exact hlt
      · exact hlt.trans ((List.pairwise_cons.1 hxs).1 n hn)
    · exact hy n hn
  | case5 x xs y ys hle hle' ih =>
    have heq : x = y := le_antisymm (not_lt.1 hle') (not_lt.1 hle)
    obtain ⟨hx, hxs'⟩ := List.pairwise_cons.1 hxs
    obtain ⟨hy, hys'⟩ := List.pairwise_cons.1 hys
    refine List.pairwise_cons.2 ⟨fun n hn => ?_, ih hxs' hys'⟩
    rcases mem_union.1 hn with hn | hn
    · exact hx n hn
    · exact heq ▸ hy n hn

theorem length_union_le (xs ys : List Int) : (union xs ys).length ≤ xs.length + ys.length := by
  fun_induction union xs ys with
  | case1 ys => simp
  | case2 xs => simp
  | case3 | case4 | case5 =>
    simp only [List.length_cons] at *
    omega

theorem lists_union {xs ys : List Int} {A B : Finset Int} (hxs : Lists xs A) (hys : Lists ys B) :
    Lists (union xs ys) (A ∪ B) := by
  refine .of_mem_iff (pairwise_union hxs.ascending hys.ascending) fun n => ?_
  rw [mem_union, hxs.mem_iff, hys.mem_iff, Finset.mem_union]

theorem pairwise_ascending (ns : List Int) : (ascending ns).Pairwise (· < ·) := by
  have hascending : SetCondition.IsAscending (ascending ns) := SetCondition.isAscending_canonical ns
  refine hascending.imp fun {a b} hab => ?_
  exact lt_of_le_of_ne (of_decide_eq_true hab.1) hab.2

theorem mem_ascending {ns : List Int} {n : Int} : n ∈ ascending ns ↔ n ∈ ns :=
  SetCondition.mem_canonical

theorem pairwise_of_mem_map_ascending :
    ∀ ns ∈ allowed.map ascending, ns.Pairwise (· < ·) := by
  intro ns hns
  obtain ⟨ns', -, rfl⟩ := Option.mem_map.1 hns
  exact pairwise_ascending ns'

theorem denoted_map_ascending (spans : List Span) :
    denoted (allowed.map ascending) spans = denoted allowed spans := by
  ext n
  cases allowed with
  | none => rfl
  | some ns => simp [mem_denoted, mem_ascending]

/-- The members of a span list what it denotes. -/
theorem lists_members (hallowed : ∀ ns ∈ allowed, ns.Pairwise (· < ·)) (s : Span) :
    Lists (members allowed s) (denoted allowed [s]) := by
  cases allowed with
  | some ns =>
    refine .of_mem_iff ((hallowed ns rfl).filter _) fun n => ?_
    simp [members, mem_denoted, and_comm]
  | none =>
    cases s with
    | single m =>
      refine .of_mem_iff (List.pairwise_singleton _ m) fun n => ?_
      simp [members, mem_denoted, contains]
    | interval low high =>
      refine .of_mem_iff ?_ fun n => ?_
      · refine List.pairwise_map.2 (List.pairwise_lt_range.imp fun {i j} hij => ?_)
        omega
      · simp [members, width, mem_denoted, ← mem_integers, integers]

/-! ### One span -/

theorem exceeds_eq_false_iff {count : Nat} :
    exceeds cap count = false ↔ ∀ most ∈ cap, count ≤ most := by
  cases cap with
  | none => simp [exceeds]
  | some most => simp [exceeds]

theorem exceeds_mono {count count' : Nat} (hle : count ≤ count')
    (h : exceeds cap count' = false) : exceeds cap count = false := by
  rw [exceeds_eq_false_iff] at h ⊢
  exact fun most hmost => hle.trans (h most hmost)

variable {found all : List Int} {s : Span} {spans : List Span} {A : Finset Int}

/-- What is collected is within the cap. -/
theorem collect_eq_ok (h : collect cap allowed found s = .ok all) :
    all = union found (members allowed s) ∧ exceeds cap all.length = false := by
  -- Whatever was found about the width, the result is checked.
  obtain ⟨tooWide, hcollect⟩ : ∃ tooWide, collect cap allowed found s =
      if tooWide = true then .error .tooManyOptions
      else if exceeds cap (union found (members allowed s)).length then .error .tooManyOptions
      else .ok (union found (members allowed s)) := ⟨_, rfl⟩
  rw [hcollect] at h
  split at h
  · cases h
  split at h
  · cases h
  · rename_i hexceeds
    cases h
    exact ⟨rfl, Bool.eq_false_iff.2 hexceeds⟩

theorem failsOnly_collect (cap : Option Nat) (allowed : Option (List Int)) (found : List Int)
    (s : Span) : FailsOnly (· = .tooManyOptions) (collect cap allowed found s) :=
  .ite (.error rfl) (.ite (.error rfl) (.ok _))

/-- With allowed integers only the number of those found is checked. -/
theorem collect_of_allowed {ns : List Int}
    (h : exceeds cap (union found (members (some ns) s)).length = false) :
    collect cap (some ns) found s = .ok (union found (members (some ns) s)) := by
  simp [collect, h]

theorem length_members (s : Span) : (members none s).length = s.width := by
  cases s with
  | single n => rfl
  | interval low high => rw [members, List.length_map, List.length_range]

/-- If the cap covers what was found and the width of the span, the span is collected. -/
theorem collect_of_width (h : exceeds cap (found.length + s.width) = false) :
    collect cap none found s = .ok (union found (members none s)) := by
  have hlen : (union found (members none s)).length ≤ found.length + s.width := by
    rw [← length_members s]
    exact length_union_le _ _
  have hall := exceeds_mono hlen h
  cases s with
  | single n => simp [collect, hall]
  | interval low high => simp [collect, h, hall]

/-! ### All spans -/

theorem run_cons_eq_ok {ns : List Int} :
    (s :: spans).foldlM (collect cap allowed) found = .ok ns ↔
      ∃ mid, collect cap allowed found s = .ok mid ∧
        spans.foldlM (collect cap allowed) mid = .ok ns := by
  rw [List.foldlM_cons]
  exact bind_eq_ok

/-- **A run that succeeds lists what the spans denote**, within the cap. -/
theorem lists_run (hallowed : ∀ ns ∈ allowed, ns.Pairwise (· < ·)) (hfound : Lists found A)
    (hcap : exceeds cap found.length = false)
    (h : spans.foldlM (collect cap allowed) found = .ok all) :
    Lists all (A ∪ denoted allowed spans) ∧ exceeds cap all.length = false := by
  -- Each span adds to what was found, so the list and its set are general in the induction.
  induction spans generalizing found A with
  | nil =>
    cases h
    rw [denoted_nil, Finset.union_empty]
    exact ⟨hfound, hcap⟩
  | cons s spans ih =>
    obtain ⟨mid, hmid, h⟩ := run_cons_eq_ok.1 h
    obtain ⟨rfl, hcap'⟩ := collect_eq_ok hmid
    rw [denoted_cons, ← Finset.union_assoc]
    exact ih (lists_union hfound (lists_members hallowed s)) hcap' h

/-- With allowed integers a run succeeds if the cap covers what the spans denote. -/
theorem exists_run_of_allowed {ns : List Int} (hns : ns.Pairwise (· < ·)) (hfound : Lists found A)
    (hcap : exceeds cap (A ∪ denoted (some ns) spans).card = false) :
    ∃ all, spans.foldlM (collect cap (some ns)) found = .ok all := by
  induction spans generalizing found A with
  | nil => exact ⟨found, rfl⟩
  | cons s spans ih =>
    have hmid : Lists (union found (members (some ns) s)) (A ∪ denoted (some ns) [s]) :=
      lists_union hfound (lists_members (by simpa using hns) s)
    rw [denoted_cons, ← Finset.union_assoc] at hcap
    obtain ⟨all, hall⟩ := ih hmid hcap
    have hlen : exceeds cap (union found (members (some ns) s)).length = false := by
      rw [hmid.length_eq]
      exact exceeds_mono (Finset.card_le_card Finset.subset_union_left) hcap
    exact ⟨all, run_cons_eq_ok.2 ⟨_, collect_of_allowed hlen, hall⟩⟩

/-- Without allowed integers a run succeeds if the cap covers what was found and the cost of the
spans. -/
theorem exists_run_of_cost (hcap : exceeds cap (found.length + cost spans) = false) :
    ∃ all, spans.foldlM (collect cap none) found = .ok all := by
  induction spans generalizing found with
  | nil => exact ⟨found, rfl⟩
  | cons s spans ih =>
    have hlen := length_union_le found (members none s)
    rw [length_members] at hlen
    rw [cost, card_integers] at hcap
    have hwidth : exceeds cap (found.length + s.width) = false := exceeds_mono (by omega) hcap
    obtain ⟨all, hall⟩ : ∃ all,
        spans.foldlM (collect cap none) (union found (members none s)) = .ok all :=
      ih (exceeds_mono (by omega) hcap)
    exact ⟨all, run_cons_eq_ok.2 ⟨_, collect_of_width hwidth, hall⟩⟩

/-! ### Enumeration -/

section Enumerate

variable {token : List Char}

theorem enumerate_eq_run (h : decompose false token = .ok spans) :
    enumerate cap allowed token =
      if allowed.isNone && exceeds cap spans.length then .error .tooManyOptions
      else spans.foldlM (collect cap (allowed.map ascending)) [] := by
  rw [enumerate, h]
  rfl

theorem lists_enumerate (h : decompose false token = .ok spans)
    (hall : enumerate cap allowed token = .ok all) :
    Lists all (denoted allowed spans) ∧ exceeds cap all.length = false := by
  rw [enumerate_eq_run h] at hall
  split at hall
  · cases hall
  · have hzero : exceeds cap 0 = false := exceeds_eq_false_iff.2 fun most _ => most.zero_le
    have hlists := lists_run pairwise_of_mem_map_ascending .nil hzero hall
    rwa [Finset.empty_union, denoted_map_ascending] at hlists

theorem failsOnly_enumerate (h : decompose false token = .ok spans) :
    FailsOnly (· = .tooManyOptions) (enumerate cap allowed token) := by
  rw [enumerate_eq_run h]
  exact .ite (.error rfl) (.foldlM (failsOnly_collect cap _) spans [])

/-- What is denoted cannot be listed within a cap that is too small for it. -/
theorem enumerate_of_lt_card (h : decompose false token = .ok spans) {most : Nat}
    (hmost : most < (denoted allowed spans).card) :
    enumerate (some most) allowed token = .error .tooManyOptions := by
  cases hresult : enumerate (some most) allowed token with
  | error e => rw [failsOnly_enumerate h e hresult]
  | ok all =>
    obtain ⟨hlists, hcap⟩ := lists_enumerate h hresult
    have hle := exceeds_eq_false_iff.1 hcap most rfl
    rw [hlists.length_eq] at hle
    omega

theorem exists_enumerate_of_allowed (h : decompose false token = .ok spans) {ns : List Int}
    (hcap : exceeds cap (denoted (some ns) spans).card = false) :
    ∃ all, enumerate cap (some ns) token = .ok all := by
  rw [enumerate_eq_run h]
  have hdenoted : denoted ((some ns).map ascending) spans = denoted (some ns) spans :=
    denoted_map_ascending spans
  rw [Option.map_some] at hdenoted
  refine exists_run_of_allowed (pairwise_ascending ns) .nil ?_
  rwa [hdenoted, Finset.empty_union]

theorem exists_enumerate_of_cost (h : decompose false token = .ok spans)
    (hcap : exceeds cap (cost spans) = false) : ∃ all, enumerate cap none token = .ok all := by
  have hspans : exceeds cap spans.length = false := exceeds_mono (length_le_cost spans) hcap
  rw [enumerate_eq_run h, hspans]
  exact exists_run_of_cost (by simpa using hcap)

end Enumerate

/-- **Enumerating is exact and capped.** Let a text be read as spans. If enumerating it succeeds, the
result has all integers that the spans denote, in strictly ascending order, and not more than the cap
allows; and it only ever fails because there are too many. With a set of allowed integers it fails
exactly if more are denoted than the cap allows. Without such a set it fails in that case too, and it
succeeds if the cap covers the cost of the spans. Without a cap it always succeeds. -/
theorem enumerate_exact {token : List Char} {spans : List Span}
    (h : decompose false token = .ok spans) (cap : Option Nat) (allowed : Option (List Int)) :
    let result := enumerate cap allowed token
    (∀ ns, result = .ok ns → ns.Pairwise (· < ·) ∧ ns.toFinset = denoted allowed spans ∧
      ∀ most ∈ cap, ns.length ≤ most) ∧
    (∀ e, result = .error e → e = .tooManyOptions) ∧
    (allowed ≠ none → (result = .error .tooManyOptions ↔
      ∃ most ∈ cap, most < (denoted allowed spans).card)) ∧
    (allowed = none →
      ((∃ most ∈ cap, most < (denoted allowed spans).card) → result = .error .tooManyOptions) ∧
      ((∀ most ∈ cap, cost spans ≤ most) → ∃ ns, result = .ok ns)) ∧
    (cap = none → ∃ ns, result = .ok ns) := by
  intro result
  have hfails : (∃ most ∈ cap, most < (denoted allowed spans).card) →
      result = .error .tooManyOptions := by
    rintro ⟨most, rfl, hmost⟩
    exact enumerate_of_lt_card h hmost
  have hallowed : allowed ≠ none → (∀ most ∈ cap, (denoted allowed spans).card ≤ most) →
      ∃ ns, result = .ok ns := by
    intro hsome hcap
    obtain ⟨ns, rfl⟩ := Option.ne_none_iff_exists'.1 hsome
    exact exists_enumerate_of_allowed h (exceeds_eq_false_iff.2 hcap)
  have hfree : allowed = none → (∀ most ∈ cap, cost spans ≤ most) → ∃ ns, result = .ok ns := by
    rintro rfl hcap
    exact exists_enumerate_of_cost h (exceeds_eq_false_iff.2 hcap)
  refine ⟨fun ns hns => ?_, failsOnly_enumerate h, fun hsome => ⟨fun herror => ?_, hfails⟩,
    fun hnone => ⟨hfails, hfree hnone⟩, ?_⟩
  · obtain ⟨hlists, hcap⟩ := lists_enumerate h hns
    exact ⟨hlists.ascending, hlists.toFinset_eq, exceeds_eq_false_iff.1 hcap⟩
  · by_contra hnot
    have hcap : ∀ most ∈ cap, (denoted allowed spans).card ≤ most := fun most hmost =>
      not_lt.1 fun hlt => hnot ⟨most, hmost, hlt⟩
    obtain ⟨ns, hns⟩ := hallowed hsome hcap
    rw [herror] at hns
    cases hns
  · rintro rfl
    by_cases hnone : allowed = none
    · exact hfree hnone (by simp)
    · exact hallowed hnone (by simp)

/-- Overlapping spans, one of them reversed: four integers, of which two are allowed. -/
theorem enumerate_exact_overlap :
    let token := "9,1-3,3-2,2".toList
    let spans := [single 9, interval 1 3, interval 3 2, single 2]
    decompose false token = .ok spans ∧
      enumerate (some 3) none token = .error .tooManyOptions ∧
      (∃ ns, enumerate (some 6) none token = .ok ns ∧ ns.toFinset = {1, 2, 3, 9}) ∧
      enumerate (some 1) (some [9, 2, 7]) token = .error .tooManyOptions ∧
      ∃ ns, enumerate none (some [9, 2, 7]) token = .ok ns ∧ ns.toFinset = {2, 9} ∧
        ns.Pairwise (· < ·) := by
  intro token spans
  have hspans : decompose false token = .ok spans := rfl
  have hall : denoted none spans = {1, 2, 3, 9} := by decide
  have hsome : denoted (some [9, 2, 7]) spans = {2, 9} := by decide
  obtain ⟨-, -, -, hfew, -⟩ := enumerate_exact hspans (some 3) none
  obtain ⟨hexact, -, -, hmany, -⟩ := enumerate_exact hspans (some 6) none
  obtain ⟨-, -, hone, -, -⟩ := enumerate_exact hspans (some 1) (some [9, 2, 7])
  obtain ⟨hexact', -, -, -, huncapped⟩ := enumerate_exact hspans none (some [9, 2, 7])
  obtain ⟨ns, hns⟩ := (hmany rfl).2 (by decide)
  obtain ⟨ns', hns'⟩ := huncapped rfl
  refine ⟨hspans, (hfew rfl).1 ⟨3, rfl, by rw [hall]; decide⟩, ⟨ns, hns, ?_⟩,
    (hone (by decide)).2 ⟨1, rfl, by rw [hsome]; decide⟩, ns', hns', ?_, (hexact' ns' hns').1⟩
  · rw [(hexact ns hns).2.1, hall]
  · rw [(hexact' ns' hns').2.1, hsome]

end Span

end SearchBox
