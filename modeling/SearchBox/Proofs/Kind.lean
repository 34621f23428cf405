import SearchBox.Kind
import SearchBox.Proofs.Cleaning
import SearchBox.Proofs.Sequence
import SearchBox.Proofs.SetCondition
import SearchBox.Proofs.Write

/-!
# What every kind of box does to a query

Two laws hold for all kinds of boxes and all their options.

* `compile_merges`: the empty query becomes a simple one, with fields only or alternatives only, and
  that query is merged into any other one that constrains none of its keys.
* `compile_blamesUser`: an error is the user's, if the functions that the kind was given keep to
  that.

The kinds fall into few families, such as those that hold the text against a grammar (`guarded`) or
store one value (`stored`), and there is one lemma on each family.
-/

namespace SearchBox

open Text

/-- Every box drops the blanks of a text and keeps the plus signs. -/
theorem Kind.cleans_policy (k : Kind) : k.policy.Cleans := by
  cases k with
  | set items _ _ | setByName items _ _ => cases items <;> exact ⟨rfl, rfl⟩
  | _ => exact ⟨rfl, rfl⟩

namespace Kind

/-! ### Assignments -/

/-- The entry that an assignment writes. -/
def entryOf (key : String) (a : Int × Scalar) : String × Constraint :=
  (Sequence.elementKey key a.1, .value a.2)

/-- The query after assignments were written into it, from left to right. -/
def withAssignments (q : Query) (key : String) (as : List (Int × Scalar)) : Query :=
  { q with fields := q.fields.insertAll (as.map (entryOf key)) }

@[simp] theorem withAssignments_nil (q : Query) (key : String) : withAssignments q key [] = q :=
  Query.ext rfl rfl

/-- Assignments succeed when all of them can be read, and then write one entry each. -/
theorem assign_eq_ok {read : List Char → Except Error (Int × Scalar)} {key : String}
    {ps : List (List Char)} {q q' : Query} :
    assign read key ps q = (q', .ok ()) ↔
      ∃ as, ps.mapM read = .ok as ∧ q' = withAssignments q key as := by
  induction ps generalizing q with
  | nil =>
    constructor
    · intro h
      cases h
      exact ⟨[], rfl, (withAssignments_nil _ key).symm⟩
    · rintro ⟨as, has, rfl⟩
      rw [mapM_nil_eq_ok.1 has, withAssignments_nil]
      rfl
  | cons p ps ih =>
    -- A fault leaves no reading of the whole list, whatever was written before it.
    cases hp : read p with
    | error e =>
      constructor
      · intro h
        simp [assign, hp] at h
      · rintro ⟨as, has, -⟩
        obtain ⟨a, -, ha, -⟩ := mapM_cons_eq_ok.1 has
        simp [hp] at ha
    | ok a =>
      rw [assign, hp, ih]
      constructor
      · rintro ⟨as, has, rfl⟩
        exact ⟨a :: as, mapM_cons_eq_ok.2 ⟨a, as, hp, has, rfl⟩, rfl⟩
      · rintro ⟨bs, hbs, rfl⟩
        obtain ⟨b, as, hb, has, rfl⟩ := mapM_cons_eq_ok.1 hbs
        cases hp.symm.trans hb
        exact ⟨as, has, rfl⟩

theorem failsOnly_assign {P : Error → Prop} {read : List Char → Except Error (Int × Scalar)}
    (h : ∀ piece, FailsOnly P (read piece)) (key : String) (ps : List (List Char)) (q : Query) :
    FailsOnly P (assign read key ps q).2 := by
  induction ps generalizing q with
  | nil => exact .ok ()
  | cons p ps ih =>
    unfold assign
    split
    · rename_i e he
      exact .error (h p e he)
    · exact ih _

/-- An assignment fails with an error of the user or with one of the reader of its value. -/
theorem failsOnly_readAssignment {P : Error → Prop} (hinput : ∀ e, e.isInput = true → P e)
    {read : Reader} (hread : ∀ token, FailsOnly P (read token)) (letters : String) (shift : Int)
    (piece : List Char) : FailsOnly P (readAssignment letters shift read piece) := by
  unfold readAssignment
  split
  · exact .error (hinput _ rfl)
  simp only
  split
  · exact .error (hinput _ rfl)
  refine .bind ((Reader.failsOnly_readInteger _).mono fun e he => hinput e he.isInput) fun n => ?_
  split
  · exact .error (hinput _ rfl)
  · exact (hread _).map _

/-! ### Sets -/

theorem enumerate_blamesUser (cap : Option Nat) (allowed : Option (List Int))
    (token : List Char) : FailsOnly (·.isInput = true) (Span.enumerate cap allowed token) := by
  have hinteger : ∀ cs, FailsOnly (·.isInput = true) (Reader.readInteger cs) := fun cs =>
    (Reader.failsOnly_readInteger cs).mono fun _ => Reader.Refuses.isInput
  have hpiece : ∀ piece, FailsOnly (·.isInput = true) (Span.ofPiece false piece) := by
    intro piece
    unfold Span.ofPiece
    split
    · exact (hinteger piece).map _
    · exact .ite (.error rfl) ((hinteger _).bind fun low => (hinteger _).map _)
  have hcollect : ∀ found s,
      FailsOnly (·.isInput = true) (Span.collect cap (allowed.map Span.ascending) found s) :=
    fun found s => .ite (.error rfl) (.ite (.error rfl) (.ok _))
  refine ((FailsOnly.mapM fun piece _ => hpiece piece).map _).bind fun spans => ?_
  exact .ite (.error rfl) (FailsOnly.foldlM hcollect spans [])

theorem readLabels_blamesUser (text : List Char) :
    FailsOnly (·.isInput = true) (readLabels text) := by
  unfold readLabels
  split
  · exact .error rfl
  · exact .ok _

theorem apply_blamesUser {α : Type} [SetItem α] [BEq α] (mode : SetMode)
    (column : Option (DerivedColumn α)) (items : List α) (key : String) (q : Query) :
    FailsOnly (·.isInput = true) (SetCondition.apply mode column items key q).2 := by
  refine (SetCondition.failsOnly_apply mode column items key q).mono ?_
  rintro e rfl
  rfl

theorem compileSet_blamesUser (items : SetItems) (mode : SetMode)
    (column : Option (DerivedColumn Int)) (text : List Char) (context : Context) (q : Query) :
    FailsOnly (·.isInput = true) (compileSet items mode column text context q).2 := by
  cases items with
  | integers most =>
    exact Write.failsOnly_after (enumerate_blamesUser (some most) none text) fun ns =>
      apply_blamesUser mode column ns context.key q
  | labels repeats =>
    exact Write.failsOnly_after (readLabels_blamesUser text) fun ls =>
      apply_blamesUser mode none _ context.key q

/-! ### Families of kinds -/

section Families

variable {text : List Char} {context : Context}

/-- A text is accepted by the grammar before it is compiled, and compiled before it is merged. -/
theorem guarded_eq_ok {accepts : List Char → Bool} {hint : String}
    {compile : String → List Char → Except Error Fragment} {q d : Query} :
    guarded accepts hint compile text context q = (d, .ok ()) ↔
      accepts text = true ∧ ∃ f, compile context.key text = .ok f ∧ q.fold f = d := by
  unfold guarded
  split
  · rename_i h
    rw [Write.after_change_eq_ok, and_iff_right h]
  · rename_i h
    simp [h]

theorem stored_eq_ok {read : List Char → Except Error Scalar} {q d : Query} :
    stored read text context q = (d, .ok ()) ↔
      ∃ v, read text = .ok v ∧ q.insert context.key (.value v) = d :=
  Write.after_change_eq_ok

theorem merges_guarded {accepts : List Char → Bool} {hint : String}
    {compile : String → List Char → Except Error Fragment}
    (h : ∀ f, compile context.key text = .ok f → f.query.Simple) :
    Merges (guarded accepts hint compile text context) := by
  unfold guarded
  split
  · exact merges_after fun f hf => merges_fold (h f hf)
  · exact merges_fail _

theorem merges_stored (read : List Char → Except Error Scalar) :
    Merges (stored read text context) :=
  merges_after fun _ _ => merges_insert _ _

theorem merges_compileTruth (blank : List String) (store : Bool → Scalar) :
    Merges (compileTruth blank store text context) := by
  unfold compileTruth
  simp only
  split
  · exact merges_done
  · refine merges_after fun b? _ => ?_
    cases b? with
    | none => exact merges_done
    | some b => exact merges_insert _ _

theorem merges_compileTruthOrUnknown : Merges (compileTruthOrUnknown text context) :=
  merges_after fun _ _ => merges_insert _ _

theorem merges_compileChoice (allowed blank : List String) (store : String → Scalar) :
    Merges (compileChoice allowed blank store text context) := by
  unfold compileChoice
  simp only
  split
  · exact merges_done
  split
  · exact merges_insert _ _
  · exact merges_fail _

theorem merges_assign {read : List Char → Except Error (Int × Scalar)} {key : String}
    {ps : List (List Char)} : Merges (assign read key ps) := by
  intro d hd
  obtain ⟨as, has, rfl⟩ := assign_eq_ok.1 hd
  refine ⟨.fields rfl, fun q _ => assign_eq_ok.2 ⟨as, has, ?_⟩⟩
  exact Query.ext (OrderedMap.merge_ofList q.fields _) (by simp [withAssignments, Query.empty])

/-- A set condition chooses its key without a look at the query. -/
theorem merges_apply {α : Type} [SetItem α] [BEq α] (mode : SetMode)
    (column : Option (DerivedColumn α)) (items : List α) (key : String) :
    Merges (SetCondition.apply mode column items key) := by
  obtain ⟨key', c, h⟩ := SetCondition.exists_apply_eq_insert mode column items key
  exact merges_of_insert h

theorem merges_compileSet (items : SetItems) (mode : SetMode)
    (column : Option (DerivedColumn Int)) :
    Merges (compileSet items mode column text context) := by
  cases items with
  | integers most => exact merges_after fun ns _ => merges_apply mode column ns context.key
  | labels repeats => exact merges_after fun ls _ => merges_apply mode none _ context.key

theorem merges_absorb {compilePart : List Char → Except Error Query}
    (h : ∀ part s, compilePart part = .ok s → s.Plain) (ps : List (List Char)) :
    Merges (Sequence.absorb compilePart ps) := by
  intro d hd
  exact ⟨Sequence.absorb_simple (fun part _ s => h part s) hd,
    fun q _ => Sequence.absorb_eq_update hd q⟩

end Families

/-- **Every kind makes a simple query of the empty one, and merges it into any query that shares no
key with it.** -/
theorem compile_merges (k : Kind) (text : List Char) (context : Context) :
    Merges (k.compile text context) := by
  unfold compile
  cases k with
  | integers => exact merges_guarded fun _ => Range.simple_of_compile
  | boundedIntegers min max => exact merges_guarded fun _ => Range.simple_of_compile
  | signedIntegers => exact merges_guarded fun _ => Range.simple_of_compile
  | doubles => exact merges_guarded fun _ => Range.simple_of_compile
  | rationals => exact merges_guarded fun _ => Range.simple_of_compileRational
  | rational => exact merges_stored _
  | integerVector exactly most => exact merges_stored _
  | rationalVector => exact merges_stored _
  | integerList store => exact merges_stored _
  | truth blank store => exact merges_compileTruth blank store
  | truthOrUnknown => exact merges_compileTruthOrUnknown
  | choice allowed blank store => exact merges_compileChoice allowed blank store
  | text store => exact merges_stored _
  | assignments letters shift read => exact merges_assign
  | label resolve => exact merges_stored _
  | set items mode column => exact merges_compileSet items mode column
  | setByName items mode column =>
    exact merges_after fun m _ => merges_compileSet items m column
  | leading l =>
    exact merges_absorb (fun part s => l.plain_compilePart context.key) (Sequence.parts text)
  | beginning b =>
    exact merges_absorb (fun part s => b.plain_compilePart context.key) (Sequence.parts text)

/-! ### Errors -/

/-- The functions that a kind was given report errors of the user only: labels are resolved by an
alias table, and the values of assignments are read by a reader such as those of the library. -/
def IsRegular : Kind → Prop
  | assignments _ _ read => read.BlamesUser
  | label resolve => ∃ table : AliasTable, resolve = table.resolve
  | _ => True

/-- Labels are resolved by an alias table. -/
def UsesTable : Kind → Prop
  | label resolve => ∃ table : AliasTable, resolve = table.resolve
  | _ => True

/-- The error is one that the reader for the values of assignments reports. -/
def HandsOn : Kind → Error → Prop
  | assignments _ _ read, e => ∃ token, read token = .error e
  | _, _ => False

section Errors

variable {text : List Char} {context : Context} {q : Query}

theorem failsOnly_guarded {P : Error → Prop} {accepts : List Char → Bool} {hint : String}
    {compile : String → List Char → Except Error Fragment} (hhint : P (.rejected hint))
    (h : FailsOnly P (compile context.key text)) :
    FailsOnly P (guarded accepts hint compile text context q).2 := by
  unfold guarded
  split
  · exact Write.failsOnly_after h fun f => .ok ()
  · exact .error hhint

theorem failsOnly_stored {P : Error → Prop} {read : List Char → Except Error Scalar}
    (h : FailsOnly P (read text)) :
    FailsOnly P (stored read text context q).2 :=
  Write.failsOnly_after h fun _ => .ok ()

theorem boundedInteger_blamesUser (min max : Int) : (boundedInteger min max).BlamesUser := fun _ =>
  ((Reader.failsOnly_readInteger _).mono fun _ => Reader.Refuses.isInput).bind fun _ =>
    .ite (.error rfl) (.ok _)

theorem readIntegers_blamesUser (ps : List (List Char)) :
    FailsOnly (·.isInput = true) (ps.mapM Reader.readInteger) :=
  .mapM fun _ _ => (Reader.failsOnly_readInteger _).mono fun _ => Reader.Refuses.isInput

theorem readTruth_blamesUser (s : String) : FailsOnly (·.isInput = true) (readTruth s) :=
  .ite (.ok _) (.ite (.ok _) (.ite (.ok _) (.error rfl)))

theorem readTruthOrUnknown_blamesUser (s : String) :
    FailsOnly (·.isInput = true) (readTruthOrUnknown s) :=
  .ite (.ok _) (.ite (.ok _) (.ite (.ok _) (.ite (.ok _) (.ite (.ok _) (.error rfl)))))

theorem compileTruth_blamesUser (blank : List String) (store : Bool → Scalar) :
    FailsOnly (·.isInput = true) (compileTruth blank store text context q).2 := by
  unfold compileTruth
  split
  · exact .ok ()
  · refine Write.failsOnly_after (readTruth_blamesUser _) fun b? => ?_
    cases b? with
    | none => exact .ok ()
    | some b => exact .ok ()

theorem compileChoice_blamesUser (allowed blank : List String) (store : String → Scalar) :
    FailsOnly (·.isInput = true) (compileChoice allowed blank store text context q).2 := by
  unfold compileChoice
  split
  · exact .ok ()
  split
  · exact .ok ()
  · exact .error rfl

theorem readMode_blamesUser (mode : String) : FailsOnly (·.isInput = true) (readMode mode) := by
  unfold readMode
  split
  · exact .ok _
  · exact .error rfl

theorem readIntegerVector_blamesUser (exactly most : Option Nat) :
    FailsOnly (·.isInput = true) (readIntegerVector exactly most text) :=
  .ite ((FailsOnly.ite (.ok _) (readIntegers_blamesUser _)).map _) (.error rfl)

theorem readRationalVector_blamesUser : FailsOnly (·.isInput = true) (readRationalVector text) := by
  refine .ite (.error rfl) (.ite (.ok _) (FailsOnly.map (.mapM fun piece _ => ?_) _))
  exact (Reader.failsOnly_readFraction piece).mono fun _ => Reader.Refuses.isInput

end Errors

theorem resolve_blamesUser (table : AliasTable) (raw : List Char) :
    FailsOnly (·.isInput = true) (table.resolve raw) := by
  refine .ite (.error rfl) ?_
  split
  · exact .ok _
  · exact .ite (.ok _) (.error rfl)

/-- **What a kind refuses is the user's error.** -/
theorem compile_blamesUser {k : Kind} (hk : k.IsRegular) (text : List Char) (context : Context)
    (q : Query) : FailsOnly (·.isInput = true) (k.compile text context q).2 := by
  unfold compile
  cases k with
  | integers =>
    exact failsOnly_guarded rfl (Range.compile_blamesUser Reader.integer_blamesUser _ _)
  | boundedIntegers min max =>
    exact failsOnly_guarded rfl (Range.compile_blamesUser (boundedInteger_blamesUser min max) _ _)
  | signedIntegers =>
    exact failsOnly_guarded rfl (Range.compile_blamesUser Reader.integer_blamesUser _ _)
  | doubles =>
    exact failsOnly_guarded rfl (Range.compile_blamesUser Reader.double_blamesUser _ _)
  | rationals =>
    exact failsOnly_guarded rfl
      (Range.compileRational_blamesUser Reader.plainRational_blamesUser _ _)
  | rational => exact failsOnly_stored (.ite (Reader.rational_blamesUser _) (.error rfl))
  | integerVector exactly most => exact failsOnly_stored (readIntegerVector_blamesUser exactly most)
  | rationalVector => exact failsOnly_stored readRationalVector_blamesUser
  | integerList store => exact failsOnly_stored ((readIntegers_blamesUser _).map _)
  | truth blank store =>
    exact compileTruth_blamesUser blank store
  | truthOrUnknown =>
    exact Write.failsOnly_after (readTruthOrUnknown_blamesUser _) fun _ => .ok ()
  | choice allowed blank store => exact compileChoice_blamesUser allowed blank store
  | text store => exact failsOnly_stored (.ok _)
  | assignments letters shift read =>
    exact failsOnly_assign (failsOnly_readAssignment (fun _ => id) hk letters shift) _ _ _
  | label resolve =>
    obtain ⟨table, rfl⟩ := hk
    exact failsOnly_stored ((resolve_blamesUser table _).map _)
  | set items mode column => exact compileSet_blamesUser items mode column text context q
  | setByName items mode column =>
    exact Write.failsOnly_after (readMode_blamesUser mode) fun m =>
      compileSet_blamesUser items m column text context q
  | leading l =>
    exact Sequence.failsOnly_absorb (fun part hpart =>
      l.compilePart_blamesUser _ (Sequence.opens_or_not_mem hpart)) q
  | beginning b =>
    exact Sequence.failsOnly_absorb (fun part hpart =>
      b.compilePart_blamesUser _ (Sequence.opens_or_not_mem hpart)) q

/-- Of the functions that a kind is given, only the reader for the values of assignments can add
errors of its own. -/
theorem compile_blamesUser_or_handsOn {k : Kind} (hk : k.UsesTable) (text : List Char)
    (context : Context) (q : Query) :
    FailsOnly (fun e => e.isInput = true ∨ k.HandsOn e) (k.compile text context q).2 := by
  cases k with
  | assignments letters shift read =>
    refine failsOnly_assign (failsOnly_readAssignment (fun _ => .inl) ?_ letters shift) _ _ _
    exact fun token e he => .inr ⟨token, he⟩
  | label resolve =>
    exact (compile_blamesUser (k := label resolve) hk text context q).mono fun _ => .inl
  | _ =>
    refine (compile_blamesUser ?_ text context q).mono fun _ => .inl
    trivial

end Kind

end SearchBox
