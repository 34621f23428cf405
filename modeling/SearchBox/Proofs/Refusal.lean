import SearchBox.Proofs.Conjunction

/-!
# What a refused text leaves of the query

A compile function may change the query before it fails. It `IsAtomic` if it does not, and then
neither does the call of a box (`Box.query_call_of_error`). There is one lemma for each family of
kinds, from the order in which the family reads, checks and writes. All kinds are atomic but
`assignments`, which leaves the entries before the fault (`Kind.assign_eq_error`). A pair of boxes
compiles into queries of its own, so it is atomic whatever its boxes are
(`Conjunction.query_call_of_error`).
-/

namespace SearchBox

/-- A compile function that fails has left the query as it was. -/
def Compile.IsAtomic (f : Compile) : Prop := ∀ text context, (f text context).IsAtomic

/-! ### Set conditions -/

namespace SetCondition

variable {α : Type} [SetItem α] [BEq α]

/-- The field is looked up first, and nothing is written if it has a value. -/
theorem isAtomic_addOperator (set : Operators → Operators) (field : String) :
    (addOperator set field).IsAtomic := by
  intro q e h
  cases hc : q.get? field with
  | none => simp [addOperator, hc] at h
  | some c =>
    cases c with
    | operators o => simp [addOperator, hc] at h
    | value v => simp [addOperator, hc]

theorem isAtomic_setValue (items : List α) (field : String) :
    (setValue items field).IsAtomic := by
  intro q e h
  by_cases hc : q.contains field = true
  · simp [setValue, hc]
  · simp [setValue, hc] at h

theorem isAtomic_apply (mode : SetMode) (column : Option (DerivedColumn α)) (items : List α)
    (field : String) : (apply mode column items field).IsAtomic := by
  by_cases h : mode = .exactly
  · subst h
    cases column with
    | none => exact isAtomic_setValue items field
    | some column => exact Write.isAtomic_change _
  · rw [apply_of_ne_exactly h]
    exact isAtomic_addOperator _ field

end SetCondition

/-! ### Sequences -/

/-- All parts are compiled before the query is touched. -/
theorem Sequence.isAtomic_absorb (compile : List Char → Except Error Query)
    (ps : List (List Char)) : (absorb compile ps).IsAtomic := by
  rw [absorb_eq_after]
  exact Write.isAtomic_after fun _ _ => Write.isAtomic_change _

/-! ### Kinds -/

namespace Kind

/-- Assignments with a fault write what stands before the first one, and nothing after it. -/
theorem assign_eq_error {read : List Char → Except Error (Int × Scalar)} {key : String}
    {ps : List (List Char)} {q : Query} {e : Error} (h : (assign read key ps q).2 = .error e) :
    ∃ before piece rest as, ps = before ++ piece :: rest ∧ before.mapM read = .ok as ∧
      read piece = .error e ∧
      (assign read key ps q).1 = withAssignments q key as := by
  induction ps generalizing q with
  | nil => cases h
  | cons p ps ih =>
    cases hp : read p with
    | error e' =>
      simp only [assign, hp] at h ⊢
      cases h
      exact ⟨[], p, ps, [], rfl, rfl, hp, (withAssignments_nil q key).symm⟩
    | ok a =>
      simp only [assign, hp] at h ⊢
      obtain ⟨before, piece, rest, as, rfl, has, hpiece, hq⟩ := ih h
      refine ⟨p :: before, piece, rest, a :: as, rfl, ?_, hpiece, hq⟩
      exact mapM_cons_eq_ok.2 ⟨a, as, hp, has, rfl⟩

theorem isAtomic_guarded (accepts : List Char → Bool) (hint : String)
    (compile : String → List Char → Except Error Fragment) :
    Compile.IsAtomic (guarded accepts hint compile) := by
  intro text context
  unfold guarded
  split
  · exact Write.isAtomic_after fun _ _ => Write.isAtomic_change _
  · exact Write.isAtomic_fail _

theorem isAtomic_stored (read : List Char → Except Error Scalar) :
    Compile.IsAtomic (stored read) :=
  fun _ _ => Write.isAtomic_after fun _ _ => Write.isAtomic_change _

theorem isAtomic_compileTruth (blank : List String) (store : Bool → Scalar) :
    Compile.IsAtomic (compileTruth blank store) := by
  intro text context
  unfold compileTruth
  simp only
  split
  · exact Write.isAtomic_done
  · refine Write.isAtomic_after fun b? _ => ?_
    cases b? with
    | none => exact Write.isAtomic_done
    | some b => exact Write.isAtomic_change _

theorem isAtomic_compileTruthOrUnknown : Compile.IsAtomic compileTruthOrUnknown :=
  fun _ _ => Write.isAtomic_after fun _ _ => Write.isAtomic_change _

theorem isAtomic_compileChoice (allowed blank : List String) (store : String → Scalar) :
    Compile.IsAtomic (compileChoice allowed blank store) := by
  intro text context
  unfold compileChoice
  simp only
  split
  · exact Write.isAtomic_done
  split
  · exact Write.isAtomic_change _
  · exact Write.isAtomic_fail _

theorem isAtomic_compileSet (items : SetItems) (mode : SetMode)
    (column : Option (DerivedColumn Int)) : Compile.IsAtomic (compileSet items mode column) := by
  intro text context
  cases items with
  | integers most =>
    exact Write.isAtomic_after fun ns _ => SetCondition.isAtomic_apply mode column ns context.key
  | labels repeats =>
    exact Write.isAtomic_after fun ls _ => SetCondition.isAtomic_apply mode none _ context.key

/-- Every kind but `assignments` has read and checked its text before it writes. -/
theorem compile_isAtomic {k : Kind} (hk : ∀ letters shift read, k ≠ assignments letters shift read) :
    k.compile.IsAtomic := by
  unfold compile
  cases k with
  | integers => exact isAtomic_guarded _ _ _
  | boundedIntegers min max => exact isAtomic_guarded _ _ _
  | signedIntegers => exact isAtomic_guarded _ _ _
  | doubles => exact isAtomic_guarded _ _ _
  | rationals => exact isAtomic_guarded _ _ _
  | rational => exact isAtomic_stored _
  | integerVector exactly most => exact isAtomic_stored _
  | rationalVector => exact isAtomic_stored _
  | integerList store => exact isAtomic_stored _
  | truth blank store => exact isAtomic_compileTruth blank store
  | truthOrUnknown => exact isAtomic_compileTruthOrUnknown
  | choice allowed blank store => exact isAtomic_compileChoice allowed blank store
  | text store => exact isAtomic_stored _
  | assignments letters shift read => exact absurd rfl (hk letters shift read)
  | label resolve => exact isAtomic_stored _
  | set items mode column => exact isAtomic_compileSet items mode column
  | setByName items mode column =>
    exact fun text context => Write.isAtomic_after fun m _ =>
      isAtomic_compileSet items m column text context
  | leading l => exact fun text context => Sequence.isAtomic_absorb _ _
  | beginning b => exact fun text context => Sequence.isAtomic_absorb _ _

end Kind

namespace Box

variable {b : Box} {form : Form} {q : Query} {args : Arguments} {e : Error}

theorem query_run_of_error (hb : b.compile.IsAtomic) {raw : List Char} {context : Context}
    (h : (b.run raw context q).2.2 = .error e) : (b.run raw context q).2.1 = q := by
  unfold run at h ⊢
  cases hspaces : Cleaning.checkSpaces raw with
  | error e' => rfl
  | ok _ =>
    rw [hspaces] at h
    exact hb _ context q e h

/-- A box with an atomic compile function leaves the query alone when it fails. -/
theorem query_call_of_error (hb : b.compile.IsAtomic)
    (h : (b.call form q args).result = .error e) : (b.call form q args).query = q := by
  cases ht : b.typed? form args with
  | none => rw [call_of_typed?_eq_none ht]
  | some typed =>
    rw [call_of_typed?_eq_some ht] at h ⊢
    exact query_run_of_error hb h

end Box

namespace Conjunction

/-- A pair leaves the query alone when it fails, whatever its boxes do to theirs. -/
theorem query_call_of_error {form : Form} {q : Query} {first second : Side} {e : Error}
    (h : (call form q first second).result = .error e) :
    (call form q first second).query = q := by
  unfold call
  rcases call_eq_error h with hfirst | ⟨mid, l, hfirst, hsecond | ⟨last, r, hsecond, hcombine⟩⟩
  · simp only [hfirst]
  · simp only [hfirst, hsecond]
  · simp only [hfirst, hsecond, hcombine]

end Conjunction

/-- **A refused text changes no query.** If the box of a kind other than `assignments` refuses its
text, under whatever policy and whatever the query holds, then the query is as before. So it is when
a pair of any two boxes fails, also if the boxes write before they fail. -/
theorem query_eq_of_refused :
    (∀ (k : Kind) (p : Policy) (form : Form) (q : Query) (args : Arguments) (e : Error),
      (∀ letters shift read, k ≠ .assignments letters shift read) →
      (Box.call ⟨p, k.compile⟩ form q args).result = .error e →
      (Box.call ⟨p, k.compile⟩ form q args).query = q) ∧
    ∀ (first second : Conjunction.Side) (form : Form) (q : Query) (e : Error),
      (Conjunction.call form q first second).result = .error e →
      (Conjunction.call form q first second).query = q := by
  refine ⟨fun k p form q args e hk h => ?_, fun first second form q e h => ?_⟩
  · exact Box.query_call_of_error (b := ⟨p, k.compile⟩) (Kind.compile_isAtomic hk) h
  · exact Conjunction.query_call_of_error h

/-- A set box refuses a key that has a value, and a pair one of its boxes of assignments. -/
theorem query_eq_of_refused_conflict :
    let q : Query :=
      { fields := .singleton "c" (.value (.integer 1)), alternatives := some [.empty, .empty] }
    let form : Form := .ofList [("c", "3"), ("l", "a1=1"), ("r", "a1=1,b")]
    let box : Box := ⟨{}, (Kind.set (.labels false) .containsAll none).compile⟩
    let side (name : String) : Conjunction.Side :=
      ⟨⟨{}, (Kind.assignments "a" 0 Reader.integer).compile⟩, { field := some name }⟩
    ((box.call form q { field := some "c" }).result = .error SetCondition.conflict ∧
      (box.call form q { field := some "c" }).query = q) ∧
    ((Conjunction.call form q (side "l") (side "r")).result =
        .error (.rejected
          "It must be a comma separated list of expressions of the form aN=T") ∧
      (Conjunction.call form q (side "l") (side "r")).query = q) := by
  intro q form box side
  have hset : (box.call form q { field := some "c" }).result = .error SetCondition.conflict := rfl
  have hpair : (Conjunction.call form q (side "l") (side "r")).result =
      .error (.rejected "It must be a comma separated list of expressions of the form aN=T") := rfl
  refine ⟨⟨hset, ?_⟩, hpair, ?_⟩
  · exact query_eq_of_refused.1 (.set (.labels false) .containsAll none) {} form q _ _ nofun hset
  · exact query_eq_of_refused.2 (side "l") (side "r") form q _ hpair

/-- Assignments alone leave what they wrote. -/
example : ((Kind.assignments "a" 0 Reader.integer).compile "a1=1,b".toList ⟨"c", none⟩
    .empty).1.fields.keys = ["c.1"] := by
  decide +kernel

end SearchBox
