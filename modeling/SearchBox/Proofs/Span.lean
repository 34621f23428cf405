import SearchBox.Span
import SearchBox.Proofs.Range

/-!
# Two readings of a list of integers

A list of integers can be compiled into constraints (`Range.compile`) or read as spans
(`Span.decompose`). An integer `Admits` what the first reading gives if and only if it lies in one of
the spans that the second one gives. The two differ in one thing only: the second reading refuses an
interval without an upper end.

* `Constraint.Admits` — what a constraint says about an integer.
* `Span.exists_ofPiece` and `Span.ofPiece_of_compiled` — one piece of a list.
* `Span.exists_mapM_ofPiece` and `Span.mapM_ofPiece_of_compiled` — all pieces, by induction.
* `Span.decompose_iff_compile` — the whole text.
-/

namespace SearchBox

open Text

/-! ### Meaning -/

namespace Constraint

/-- The integer equals the value, or lies between the bounds that are there. -/
inductive Admits (n : Int) : Constraint → Prop
  | value : Admits n (.value (.integer n))
  | range {low high : Option Int} (hlow : ∀ a, low = some a → a ≤ n)
    (hhigh : ∀ b, high = some b → n ≤ b) :
    Admits n (.range (low.map .integer) (high.map .integer))

theorem admits_value {n m : Int} : Admits n (.value (.integer m)) ↔ n = m := by
  constructor
  · rintro ⟨⟩
    rfl
  · rintro rfl
    exact .value

theorem admits_range {n : Int} {low high : Option Int} :
    Admits n (.range (low.map .integer) (high.map .integer)) ↔
      (∀ a, low = some a → a ≤ n) ∧ ∀ b, high = some b → n ≤ b := by
  constructor
  · intro h
    generalize hc : range (low.map .integer) (high.map .integer) = c at h
    cases h with
    | value => cases hc
    | @range low' high' hlow hhigh =>
      have hinj : Function.Injective Scalar.integer := fun _ _ => Scalar.integer.inj
      simp only [range, Operators.range, operators.injEq, Operators.mk.injEq] at hc
      obtain rfl := Option.map_injective hinj hc.1
      obtain rfl := Option.map_injective hinj hc.2.1
      exact ⟨hlow, hhigh⟩
  · rintro ⟨hlow, hhigh⟩
    exact .range hlow hhigh

/-- If the constraint is an interval, it has an upper end. -/
def IsClosed : Constraint → Prop
  | value _ => True
  | operators o => o.max.isSome = true

end Constraint

namespace Fragment

/-- The constraints of all fields. -/
def constraints : Fragment → List Constraint
  | field _ c => [c]
  | anyOf qs => qs.flatMap fun q => q.fields.entries.map Prod.snd

/-- Every interval among the constraints has an upper end. -/
def IsClosed (f : Fragment) : Prop := ∀ c ∈ f.constraints, c.IsClosed

end Fragment

/-! ### Fragments -/

namespace Range

/-- The fragment of a list of constraints: one is a field, and several are alternatives. -/
def fragmentOf (key : String) : List Constraint → Fragment
  | [c] => .field key c
  | cs => .anyOf (cs.map (.single key))

theorem ofPieces_eq_map (compile : List Char → Except Error Constraint) (key : String)
    (ps : List (List Char)) : ofPieces compile key ps = (ps.mapM compile).map (fragmentOf key) := by
  match ps with
  | [] => rfl
  | [p] =>
    rw [ofPieces, List.mapM_cons]
    cases compile p <;> rfl
  | p :: q :: ps =>
    rw [ofPieces]
    · cases h : (p :: q :: ps).mapM compile with
      | error e => rfl
      | ok cs =>
        obtain ⟨c, cs', -, hcs', rfl⟩ := mapM_cons_eq_ok.1 h
        obtain ⟨d, cs'', -, -, rfl⟩ := mapM_cons_eq_ok.1 hcs'
        rfl
    · intro p' hp'
      cases hp'

theorem constraints_fragmentOf (key : String) (cs : List Constraint) :
    (fragmentOf key cs).constraints = cs := by
  have hanyOf : (Fragment.anyOf (cs.map (.single key))).constraints = cs := by
    induction cs with
    | nil => rfl
    | cons c cs ih => exact congrArg (c :: ·) ih
  rcases cs with _ | ⟨c, _ | ⟨d, cs⟩⟩
  · rfl
  · rfl
  · exact hanyOf

/-- A record satisfies the fragment if one of the constraints holds of the field of the key. -/
theorem holds_fragmentOf {Record : Type} (means : String → Constraint → Record → Prop) (x : Record)
    (key : String) (cs : List Constraint) :
    (fragmentOf key cs).query.Holds means x ↔ ∃ c ∈ cs, means key c x := by
  have hsingle (c : Constraint) : (Query.single key c).Holds means x ↔ means key c x := by
    rw [Query.holds_iff]
    simp [Query.single, OrderedMap.singleton]
  have hanyOf : (Query.anyOf (cs.map (.single key))).Holds means x ↔ ∃ c ∈ cs, means key c x := by
    rw [Query.holds_anyOf]
    simp only [List.mem_map, exists_exists_and_eq_and, hsingle]
  rcases cs with _ | ⟨c, _ | ⟨d, cs⟩⟩
  · exact hanyOf
  · simpa [fragmentOf, Fragment.query] using hsingle c
  · exact hanyOf

end Range

/-! ### One piece -/

namespace Range

/-- What a piece of a list of integers is compiled to. -/
inductive OfPiece (piece : List Char) : Constraint → Prop
  | value {n : Int} (hsplit : Token.split? true piece = none)
    (hn : Reader.readInteger piece = .ok n) : OfPiece piece (.value (.integer n))
  | atLeast {s : Token.Split} {low : Int} (hsplit : Token.split? true piece = some s)
    (hlow : Reader.readInteger s.low = .ok low) (hhigh : s.high = []) :
    OfPiece piece (.range (some (.integer low)) none)
  | interval {s : Token.Split} {low high : Int} (hsplit : Token.split? true piece = some s)
    (hlow : Reader.readInteger s.low = .ok low) (hne : s.high ≠ [])
    (hhigh : Reader.readInteger s.high = .ok high) :
    OfPiece piece (.range (some (.integer low)) (some (.integer high)))

variable {piece cs : List Char} {c : Constraint}

theorem integer_eq_ok {v : Scalar} :
    Reader.integer cs = .ok v ↔ ∃ n, Reader.readInteger cs = .ok n ∧ .integer n = v :=
  map_eq_ok

theorem boundOf_integer_eq_ok (h : cs ≠ []) {v : Option Scalar} :
    boundOf Reader.integer cs = .ok v ↔
      ∃ n, Reader.readInteger cs = .ok n ∧ some (.integer n) = v := by
  rw [boundOf_of_ne_nil _ h, map_eq_ok]
  simp only [integer_eq_ok, exists_exists_and_eq_and]

/-- The lower end of an interval is never missing, so there are three ways to compile a piece. -/
theorem ofPiece_integer_eq_ok :
    ofPiece (.plain Reader.integer) piece = .ok c ↔ OfPiece piece c := by
  constructor
  · intro h
    unfold ofPiece at h
    cases hsplit : Token.split? true piece with
    | none =>
      simp only [Style.plain, hsplit, map_eq_ok, integer_eq_ok] at h
      obtain ⟨v, ⟨n, hn, rfl⟩, rfl⟩ := h
      exact .value hsplit hn
    | some s =>
      have hne : s.low ≠ [] := Token.low_ne_nil_of_split? hsplit
      simp only [Style.plain, hsplit, intervalOf, bind_eq_ok, map_eq_ok, boundOf_integer_eq_ok hne] at h
      obtain ⟨_, ⟨low, hlow, rfl⟩, high, hhigh, rfl⟩ := h
      by_cases hnil : s.high = []
      · rw [hnil] at hhigh
        cases hhigh
        exact .atLeast hsplit hlow hnil
      · obtain ⟨n, hn, rfl⟩ := (boundOf_integer_eq_ok hnil).1 hhigh
        exact .interval hsplit hlow hnil hn
  · intro h
    unfold ofPiece
    cases h with
    | value hsplit hn => simp only [Style.plain, hsplit, Reader.integer, hn, Except.map]
    | atLeast hsplit hlow hhigh =>
      have hne := Token.low_ne_nil_of_split? hsplit
      have hmin := (boundOf_integer_eq_ok hne).2 ⟨_, hlow, rfl⟩
      simp only [Style.plain, hsplit, intervalOf, hmin, hhigh]
      rfl
    | interval hsplit hlow hnil hhigh =>
      have hne := Token.low_ne_nil_of_split? hsplit
      have hmin := (boundOf_integer_eq_ok hne).2 ⟨_, hlow, rfl⟩
      have hmax := (boundOf_integer_eq_ok hnil).2 ⟨_, hhigh, rfl⟩
      simp only [Style.plain, hsplit, intervalOf, hmin, hmax]
      rfl

end Range

namespace Span

variable {piece : List Char} {c : Constraint} {ss : List Span}

theorem contains_closed {n low high : Int} :
    (closed low high).contains n = true ↔ low ≤ n ∧ n ≤ high := by
  unfold closed
  split
  · rename_i heq
    simp only [contains, beq_iff_eq]
    omega
  · simp only [contains, Bool.and_eq_true, decide_eq_true_eq]

/-- A piece that is read as spans is compiled to the same integers, with an upper end. -/
theorem exists_ofPiece (h : ofPiece false piece = .ok ss) :
    ∃ c, Range.OfPiece piece c ∧ c.IsClosed ∧
      ∀ n, (∃ s ∈ ss, s.contains n = true) ↔ c.Admits n := by
  unfold ofPiece at h
  cases hsplit : Token.split? true piece with
  | none =>
    simp only [hsplit, map_eq_ok] at h
    obtain ⟨m, hm, rfl⟩ := h
    refine ⟨_, .value hsplit hm, trivial, fun n => ?_⟩
    rw [Constraint.admits_value]
    simp [contains]
  | some s =>
    simp only [hsplit] at h
    split at h
    · cases h
    · rename_i hends
      simp only [Bool.or_eq_true, List.isEmpty_iff, not_or] at hends
      simp only [bind_eq_ok, map_eq_ok] at h
      obtain ⟨low, hlow, high, hhigh, rfl⟩ := h
      refine ⟨_, .interval hsplit hlow hends.2 hhigh, rfl, fun n => ?_⟩
      have hadmits := @Constraint.admits_range n (some low) (some high)
      simp only [Option.map_some, Option.some.injEq, forall_eq'] at hadmits
      rw [hadmits]
      simp [between, contains_closed]

/-- A compiled piece is read as spans if it has an upper end, and otherwise it is refused. -/
theorem ofPiece_of_compiled (h : Range.OfPiece piece c) :
    (c.IsClosed → ∃ ss, ofPiece false piece = .ok ss) ∧
      (¬ c.IsClosed → ofPiece false piece = .error (.rejected hint)) := by
  unfold ofPiece
  cases h with
  | value hsplit hn =>
    simp only [hsplit, hn]
    exact ⟨fun _ => ⟨_, rfl⟩, fun hopen => absurd trivial hopen⟩
  | atLeast hsplit hlow hhigh =>
    simp only [hsplit, hhigh, List.isEmpty_nil, Bool.or_true, if_true]
    exact ⟨fun hclosed => absurd hclosed Bool.false_ne_true, fun _ => trivial⟩
  | @interval s low high hsplit hlow hnil hhigh =>
    have hne : s.low ≠ [] := Token.low_ne_nil_of_split? hsplit
    have hends : ¬ (s.low.isEmpty || s.high.isEmpty) = true := by
      simp only [Bool.or_eq_true, List.isEmpty_iff, not_or]
      exact ⟨hne, hnil⟩
    simp only [hsplit, if_neg hends, hlow, hhigh]
    exact ⟨fun _ => ⟨_, rfl⟩, fun hopen => absurd rfl hopen⟩

/-! ### All pieces -/

variable {ps : List (List Char)}

/-- Pieces that are all read as spans are compiled to the same integers, with upper ends. -/
theorem exists_mapM_ofPiece {sss : List (List Span)} (h : ps.mapM (ofPiece false) = .ok sss) :
    ∃ cs, ps.mapM (Range.ofPiece (.plain Reader.integer)) = .ok cs ∧ (∀ c ∈ cs, c.IsClosed) ∧
      ∀ n, (∃ s ∈ sss.flatten, s.contains n = true) ↔ ∃ c ∈ cs, c.Admits n := by
  induction ps generalizing sss with
  | nil =>
    rw [mapM_nil_eq_ok.1 h]
    exact ⟨[], rfl, by simp, by simp⟩
  | cons p ps ih =>
    obtain ⟨ss, sss, hp, hps, rfl⟩ := mapM_cons_eq_ok.1 h
    obtain ⟨c, hc, hclosed, hadmits⟩ := exists_ofPiece hp
    obtain ⟨cs, hcs, hcsclosed, hcsadmits⟩ := ih hps
    have hcompile := Range.ofPiece_integer_eq_ok.2 hc
    refine ⟨c :: cs, mapM_cons_eq_ok.2 ⟨c, cs, hcompile, hcs, rfl⟩, ?_, fun n => ?_⟩
    · simpa only [List.forall_mem_cons] using ⟨hclosed, hcsclosed⟩
    · simp only [List.flatten_cons, List.mem_append, or_and_right, exists_or, List.exists_mem_cons_iff,
        hadmits, hcsadmits]

/-- Compiled pieces are all read as spans if they have upper ends. If one has none, the list is
refused, for the pieces before it can be read. -/
theorem mapM_ofPiece_of_compiled {cs : List Constraint}
    (h : ps.mapM (Range.ofPiece (.plain Reader.integer)) = .ok cs) :
    ((∀ c ∈ cs, c.IsClosed) → ∃ sss, ps.mapM (ofPiece false) = .ok sss) ∧
      ((¬ ∀ c ∈ cs, c.IsClosed) → ps.mapM (ofPiece false) = .error (.rejected hint)) := by
  induction ps generalizing cs with
  | nil =>
    rw [mapM_nil_eq_ok.1 h]
    exact ⟨fun _ => ⟨[], rfl⟩, fun hopen => absurd (by simp) hopen⟩
  | cons p ps ih =>
    obtain ⟨c, cs, hp, hps, rfl⟩ := mapM_cons_eq_ok.1 h
    obtain ⟨hclosed, hopen⟩ := ofPiece_of_compiled (Range.ofPiece_integer_eq_ok.1 hp)
    obtain ⟨hcsclosed, hcsopen⟩ := ih hps
    simp only [List.forall_mem_cons]
    constructor
    · rintro ⟨hc, hcs⟩
      obtain ⟨ss, hss⟩ := hclosed hc
      obtain ⟨sss, hsss⟩ := hcsclosed hcs
      exact ⟨ss :: sss, mapM_cons_eq_ok.2 ⟨ss, sss, hss, hsss, rfl⟩⟩
    · intro hnot
      rw [List.mapM_cons]
      by_cases hc : c.IsClosed
      · obtain ⟨ss, hss⟩ := hclosed hc
        have hrest := hcsopen fun hcs => hnot ⟨hc, hcs⟩
        rw [hss, hrest]
        rfl
      · rw [hopen hc]
        rfl

/-! ### The whole text -/

/-- **The two readings of a list of integers agree.** If a text is read as spans, then it compiles,
and an integer lies in one of the spans if and only if it satisfies what was compiled. If a text
compiles, then it is read as spans when all its intervals have upper ends, and otherwise it is refused
with the wording for lists of integers. -/
theorem decompose_iff_compile (key : String) (token : List Char) :
    (∀ spans, decompose false token = .ok spans →
      ∃ f, Range.compile (.plain Reader.integer) key token = .ok f ∧
        ∀ n, (∃ s ∈ spans, s.contains n = true) ↔
          f.query.Holds (fun k c (n : Int) => k = key ∧ c.Admits n) n) ∧
    ∀ f, Range.compile (.plain Reader.integer) key token = .ok f →
      (f.IsClosed → ∃ spans, decompose false token = .ok spans) ∧
        (¬ f.IsClosed → decompose false token = .error (.rejected hint)) := by
  constructor
  · intro spans h
    obtain ⟨sss, hsss, rfl⟩ := map_eq_ok.1 h
    obtain ⟨cs, hcs, -, hadmits⟩ := exists_mapM_ofPiece hsss
    refine ⟨Range.fragmentOf key cs, ?_, fun n => ?_⟩
    · rw [Range.compile, Range.ofPieces_eq_map, hcs]
      rfl
    · rw [hadmits, Range.holds_fragmentOf]
      simp only [true_and]
  · intro f h
    rw [Range.compile, Range.ofPieces_eq_map] at h
    obtain ⟨cs, hcs, rfl⟩ := map_eq_ok.1 h
    obtain ⟨hclosed, hopen⟩ := mapM_ofPiece_of_compiled hcs
    rw [Fragment.IsClosed, Range.constraints_fragmentOf]
    constructor
    · intro hall
      obtain ⟨sss, hsss⟩ := hclosed hall
      exact ⟨sss.flatten, map_eq_ok.2 ⟨sss, hsss, rfl⟩⟩
    · intro hnot
      rw [decompose, hopen hnot]
      rfl

/-- One list is read both ways, with a sign, two dots and a pair of equal ends, and one is refused. -/
theorem decompose_iff_compile_signed :
    (∃ f, Range.compile (.plain Reader.integer) "n" "-3..2, 7, 5-5".toList = .ok f ∧
      ∀ n, (∃ s ∈ [interval (-3) 2, single 7, single 5], s.contains n = true) ↔
        f.query.Holds (fun k c (n : Int) => k = "n" ∧ c.Admits n) n) ∧
    decompose false "1,2-".toList = .error (.rejected hint) := by
  constructor
  · have hspans : decompose false "-3..2, 7, 5-5".toList =
        .ok [interval (-3) 2, single 7, single 5] := rfl
    exact (decompose_iff_compile "n" _).1 _ hspans
  · have hcompile : Range.compile (.plain Reader.integer) "n" "1,2-".toList =
        .ok (.anyOf [.single "n" (.value (.integer 1)),
          .single "n" (.range (some (.integer 2)) none)]) := rfl
    refine ((decompose_iff_compile "n" _).2 _ hcompile).2 fun hclosed => ?_
    have hlast := hclosed (.range (some (.integer 2)) none) (.tail _ (.head _))
    exact absurd hlast Bool.false_ne_true

end Span

end SearchBox
