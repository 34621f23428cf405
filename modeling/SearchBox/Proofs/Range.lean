import SearchBox.Range
import SearchBox.Proofs.Query
import SearchBox.Proofs.Reader

/-!
# What a token compiles to

A token without a comma compiles to a field of its key, and any other token to at least two
alternatives with that field each (`ofPieces_eq_ok`). The errors are those of the readers.
-/

namespace SearchBox.Range

open Text

theorem boundOf_of_ne_nil (read : Reader) {cs : List Char} (h : cs ≠ []) :
    boundOf read cs = (read cs).map some :=
  if_neg (by simpa using h)

/-! ### Errors -/

variable {P : Error → Prop}

theorem failsOnly_boundOf {read : Reader} (h : ∀ token, FailsOnly P (read token))
    (cs : List Char) : FailsOnly P (boundOf read cs) :=
  .ite (.ok none) ((h cs).map some)

theorem failsOnly_ofPiece {read : Reader} (h : ∀ token, FailsOnly P (read token))
    (piece : List Char) : FailsOnly P (ofPiece (.plain read) piece) := by
  unfold ofPiece
  split
  · exact (failsOnly_boundOf h _).bind fun low => (failsOnly_boundOf h _).map _
  · exact (h piece).map _

theorem failsOnly_ofRationalPiece {read : Reader} (h : ∀ token, FailsOnly P (read token))
    (piece : List Char) : FailsOnly P (ofRationalPiece read piece) :=
  .ite ((h piece).map _) (failsOnly_ofPiece h piece)

theorem failsOnly_ofPieces {compile : List Char → Except Error Constraint}
    (h : ∀ piece, FailsOnly P (compile piece)) (key : String) (ps : List (List Char)) :
    FailsOnly P (ofPieces compile key ps) := by
  unfold ofPieces
  split
  · exact (h _).map _
  · exact (FailsOnly.mapM fun piece _ => h piece).map _

/-- A token that is refused is the user's error. -/
theorem compile_blamesUser {read : Reader} (h : read.BlamesUser) (key : String)
    (token : List Char) :
    FailsOnly (·.isInput = true) (compile (.plain read) key token) :=
  failsOnly_ofPieces (failsOnly_ofPiece h) key _

theorem compileRational_blamesUser {read : Reader} (h : read.BlamesUser) (key : String)
    (token : List Char) :
    FailsOnly (·.isInput = true) (compileRational read key token) :=
  failsOnly_ofPieces (failsOnly_ofRationalPiece h) key _

/-! ### Shapes -/

/-- One piece gives a field, several give alternatives with a field each. -/
theorem ofPieces_eq_ok {compile : List Char → Except Error Constraint} {key : String}
    {ps : List (List Char)} {f : Fragment} (hps : ps ≠ []) (h : ofPieces compile key ps = .ok f) :
    (∃ c, f = .field key c) ∨
      ∃ cs : List Constraint, 2 ≤ cs.length ∧ f = .anyOf (cs.map (.single key)) := by
  match ps, hps with
  | [piece], _ =>
    obtain ⟨c, -, rfl⟩ := map_eq_ok.1 h
    exact Or.inl ⟨c, rfl⟩
  | p :: q :: ps, _ =>
    obtain ⟨cs, hcs, rfl⟩ := map_eq_ok.1 h
    refine Or.inr ⟨cs, ?_, rfl⟩
    have := length_of_mapM hcs
    simp only [List.length_cons] at this
    omega

theorem simple_of_ofPieces {compile : List Char → Except Error Constraint} {key : String}
    {ps : List (List Char)} {f : Fragment} (hps : ps ≠ []) (h : ofPieces compile key ps = .ok f) :
    f.query.Simple := by
  rcases ofPieces_eq_ok hps h with ⟨c, rfl⟩ | ⟨cs, hlen, rfl⟩
  · exact Query.simple_single key c
  · refine .choice (by simpa using hlen) fun a ha => ?_
    obtain ⟨c, -, rfl⟩ := List.mem_map.1 ha
    exact Query.plain_single key c

theorem simple_of_compile {style : Style} {key : String} {token : List Char} {f : Fragment}
    (h : compile style key token = .ok f) : f.query.Simple :=
  simple_of_ofPieces (pieces_ne_nil _ _) h

theorem simple_of_compileRational {read : Reader} {key : String} {token : List Char} {f : Fragment}
    (h : compileRational read key token = .ok f) : f.query.Simple :=
  simple_of_ofPieces (pieces_ne_nil _ _) h

/-- A token without a comma is one piece. -/
theorem compile_of_not_mem {style : Style} {key : String} {token : List Char}
    (h : ',' ∉ token) :
    compile style key token = (ofPiece style (erase ' ' token)).map (.field key) := by
  have hpieces : pieces ',' (erase ' ' token) = [erase ' ' token] :=
    pieces_of_not_mem fun hmem => h (List.mem_of_mem_filter hmem)
  rw [compile, hpieces]
  rfl

end SearchBox.Range
