import SearchBox.Proofs.Box
import SearchBox.Proofs.Cleaning
import SearchBox.Proofs.Span

/-!
# Boxes of comma lists

A box that `CompilesPieces` holds a text against a grammar, and compiles the pieces between its
commas one by one. So it takes a text if and only if the grammar accepts it and every piece is
compiled, and then it stores the constraints of the pieces in their order: one as a field, and
several as alternatives (`CompilesPieces.call_ok_iff`, `CompilesPieces.call_of_forall₂`). In most of
these boxes the grammar is about every piece alone (`IsCommaList`).
-/

namespace SearchBox.Box

open Text

/-- The box holds a text without blanks against a grammar, and compiles its pieces. -/
structure CompilesPieces (b : Box) (accepts : List Char → Bool) (hint : String)
    (ofPiece : List Char → Except Error Constraint) : Prop where
  cleans : b.policy.Cleans
  compile_eq : b.compile = Kind.guarded accepts hint fun key token =>
    Range.ofPieces ofPiece key (pieces ',' (erase ' ' token))

theorem compilesPieces_boundedIntegers (min max : Int) :
    (Kind.boundedIntegers min max).box.CompilesPieces
      (fun cs => Token.isIntegerList cs || Token.isSignedList cs) Span.hint
      (Range.ofPiece (.plain (Kind.boundedInteger min max))) where
  cleans := ⟨rfl, rfl⟩
  compile_eq := rfl

namespace CompilesPieces

variable {b : Box} {accepts : List Char → Bool} {hint : String}
variable {ofPiece : List Char → Except Error Constraint}
variable (hb : b.CompilesPieces accepts hint ofPiece)

include hb

/-- A text without blanks is compiled piece by piece. -/
theorem compile_iff {text : List Char} (hspace : erase ' ' text = text) {context : Context}
    {d : Query} :
    b.compile text context .empty = (d, .ok ()) ↔
      accepts text = true ∧ ∃ cs, List.Forall₂ (fun p c => ofPiece p = .ok c) (pieces ',' text) cs ∧
        d = (Range.fragmentOf context.key cs).query := by
  have hfold (f : Fragment) : Query.empty.fold f = f.query := by
    rw [Query.fold_eq_update, Query.empty_update]
  rw [hb.compile_eq, Kind.guarded_eq_ok, hspace, Range.ofPieces_eq_map]
  constructor
  · rintro ⟨haccepts, f, hf, rfl⟩
    obtain ⟨cs, hcs, rfl⟩ := map_eq_ok.1 hf
    exact ⟨haccepts, cs, forall₂_of_mapM hcs, hfold _⟩
  · rintro ⟨haccepts, cs, hcs, rfl⟩
    exact ⟨haccepts, _, map_eq_ok.2 ⟨cs, mapM_of_forall₂ hcs, rfl⟩, hfold _⟩

section Calls

variable {form : Form} {args : Arguments} {field raw : String}
variable (ht : b.typed? form args = some (field, raw))
variable (hspaces : Cleaning.checkSpaces raw.toList = .ok ())

include ht hspaces

theorem call_iff {d : Query} :
    (b.call form .empty args).result = .ok () ∧ (b.call form .empty args).query = d ↔
      accepts (b.policy.prepare raw.toList) = true ∧
        ∃ cs, List.Forall₂ (fun p c => ofPiece p = .ok c)
          (pieces ',' (b.policy.prepare raw.toList)) cs ∧
          d = (Range.fragmentOf (b.contextOf args field).key cs).query := by
  rw [result_eq_ok_iff ht hspaces]
  refine hb.compile_iff (Cleaning.erase_space_of_not_mem fun c hc => ?_)
  exact hb.cleans.isStripped_of_mem_prepare hc

/-- **A call succeeds if and only if the text is accepted and every piece is compiled.** -/
theorem call_ok_iff : (b.call form .empty args).result = .ok () ↔
    accepts (b.policy.prepare raw.toList) = true ∧
      ∃ cs, List.Forall₂ (fun p c => ofPiece p = .ok c)
        (pieces ',' (b.policy.prepare raw.toList)) cs := by
  constructor
  · intro hok
    obtain ⟨haccepts, cs, hcs, -⟩ := (hb.call_iff ht hspaces).1 ⟨hok, rfl⟩
    exact ⟨haccepts, cs, hcs⟩
  · rintro ⟨haccepts, cs, hcs⟩
    exact ((hb.call_iff ht hspaces).2 ⟨haccepts, cs, hcs, rfl⟩).1

/-- **The constraints of the pieces are stored in their order.** -/
theorem call_of_forall₂ (haccepts : accepts (b.policy.prepare raw.toList) = true)
    {cs : List Constraint}
    (hcs : List.Forall₂ (fun p c => ofPiece p = .ok c)
      (pieces ',' (b.policy.prepare raw.toList)) cs) :
    (b.call form .empty args).result = .ok () ∧
      (b.call form .empty args).query =
        (Range.fragmentOf (b.contextOf args field).key cs).query :=
  (hb.call_iff ht hspaces).2 ⟨haccepts, cs, hcs, rfl⟩

end Calls

end CompilesPieces

/-! ### Grammars about every piece -/

/-- The box holds every piece against a grammar, and compiles it. -/
def IsCommaList (b : Box) (isPiece : List Char → Bool) (hint : String)
    (ofPiece : List Char → Except Error Constraint) : Prop :=
  b.CompilesPieces (Token.everyPiece isPiece) hint ofPiece

theorem isCommaList_integers : Kind.integers.box.IsCommaList Token.isIntegerPiece
    Span.hint (Range.ofPiece (.plain Reader.integer)) where
  cleans := ⟨rfl, rfl⟩
  compile_eq := rfl

theorem isCommaList_signedIntegers : Kind.signedIntegers.box.IsCommaList Token.isSignedPiece
    Kind.signedHint (Range.ofPiece (.plain Reader.integer)) where
  cleans := ⟨rfl, rfl⟩
  compile_eq := rfl

theorem isCommaList_doubles : Kind.doubles.box.IsCommaList Token.isDoublePiece Kind.doubleHint
    (Range.ofPiece (.plain Reader.double)) where
  cleans := ⟨rfl, rfl⟩
  compile_eq := rfl

theorem isCommaList_rationals : Kind.rationals.box.IsCommaList Token.isRationalPiece
    Kind.rationalListHint (Range.ofRationalPiece Reader.plainRational) where
  cleans := ⟨rfl, rfl⟩
  compile_eq := rfl

namespace IsCommaList

variable {b : Box} {isPiece : List Char → Bool} {hint : String}
variable {ofPiece : List Char → Except Error Constraint}
variable (hb : b.IsCommaList isPiece hint ofPiece)
variable {form : Form} {args : Arguments} {field raw : String}
variable (ht : b.typed? form args = some (field, raw))
variable (hspaces : Cleaning.checkSpaces raw.toList = .ok ())

include hb ht hspaces

/-- **A call succeeds if and only if every piece is accepted and compiled.** -/
theorem call_ok_iff : (b.call form .empty args).result = .ok () ↔
    ∃ cs, List.Forall₂ (fun p c => isPiece p = true ∧ ofPiece p = .ok c)
      (pieces ',' (b.policy.prepare raw.toList)) cs := by
  rw [CompilesPieces.call_ok_iff hb ht hspaces]
  simp only [List.forall₂_and_left, Token.everyPiece, List.all_eq_true, exists_and_left]

theorem call_of_forall₂ {cs : List Constraint}
    (hcs : List.Forall₂ (fun p c => isPiece p = true ∧ ofPiece p = .ok c)
      (pieces ',' (b.policy.prepare raw.toList)) cs) :
    (b.call form .empty args).result = .ok () ∧
      (b.call form .empty args).query =
        (Range.fragmentOf (b.contextOf args field).key cs).query := by
  obtain ⟨haccepts, hcompiled⟩ := (List.forall₂_and_left _ _).1 hcs
  exact CompilesPieces.call_of_forall₂ hb ht hspaces (List.all_eq_true.2 haccepts) hcompiled

end IsCommaList

end SearchBox.Box
