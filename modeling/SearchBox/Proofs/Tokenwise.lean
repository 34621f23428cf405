import SearchBox.Proofs.Pieces
import SearchBox.Proofs.Span

/-!
# A comma list is compiled token by token

Two functions compile a text for a key: `Range.compile` with readers of any kind, and
`Range.compileRational`, which looks for a plain rational before it looks for separators. For both of
them a comma list means what its tokens mean one by one. A piece is compiled in the same way alone
and in a list (`IsPiecewise.of_mem`), so tokens joined with commas compile to the alternatives that
the tokens compile to, in their order, and the first token that fails decides the error
(`compile_joined`).
-/

namespace SearchBox.Range

open Text

variable {f : String → List Char → Except Error Fragment}
variable {ofPiece : List Char → Except Error Constraint}
variable {key : String} {token : List Char}

/-- The ways to compile a text for a key: values and intervals in some style, or rationals. -/
inductive IsCompiler : (String → List Char → Except Error Fragment) → Prop
  | plain (style : Style) : IsCompiler (compile style)
  | rational (read : Reader) : IsCompiler (compileRational read)

theorem fragmentOf_of_two_le {cs : List Constraint} (h : 2 ≤ cs.length) :
    fragmentOf key cs = .anyOf (cs.map (.single key)) := by
  match cs with
  | [] => rfl
  | [c] => simp at h
  | c :: d :: cs => rfl

/-! ### Piece by piece -/

/-- The text is cut at its commas, and every piece is compiled by itself. -/
def IsPiecewise (f : String → List Char → Except Error Fragment)
    (ofPiece : List Char → Except Error Constraint) : Prop :=
  ∀ key token, f key token = ((pieces ',' token).mapM ofPiece).map (fragmentOf key)

/-- Spaces may be dropped from every piece after the text was cut. -/
theorem IsCompiler.exists_isPiecewise (hf : IsCompiler f) : ∃ ofPiece, IsPiecewise f ofPiece := by
  have hpieces (ofPiece : List Char → Except Error Constraint) (key : String) (token : List Char) :
      ofPieces ofPiece key (pieces ',' (erase ' ' token)) =
        ((pieces ',' token).mapM fun p => ofPiece (erase ' ' p)).map (fragmentOf key) := by
    rw [ofPieces_eq_map, pieces_erase (by decide), List.mapM_map]
    rfl
  cases hf with
  | plain style => exact ⟨_, hpieces (ofPiece style)⟩
  | rational read => exact ⟨_, hpieces (ofRationalPiece read)⟩

namespace IsPiecewise

variable (hf : IsPiecewise f ofPiece)

include hf

/-- A token without a comma compiles to a field. -/
theorem of_not_mem (hcomma : ',' ∉ token) : f key token = (ofPiece token).map (.field key) := by
  rw [hf, pieces_of_not_mem hcomma, List.mapM_cons]
  cases ofPiece token <;> rfl

/-- **A text with a comma compiles to the alternatives that its pieces compile to.** -/
theorem of_mem (hcomma : ',' ∈ token) :
    f key token =
      ((pieces ',' token).mapM (f key)).map fun rs => .anyOf (rs.map Fragment.query) := by
  have halone : ∀ p ∈ pieces ',' token, f key p = (ofPiece p).map (Fragment.field key) :=
    fun p hp => hf.of_not_mem (not_mem_of_mem_pieces hp)
  have htwo : 2 ≤ (pieces ',' token).length := by
    have hcount := List.count_pos_iff.2 hcomma
    rw [length_pieces]
    omega
  rw [hf, mapM_eq_map_mapM halone]
  cases hcs : (pieces ',' token).mapM ofPiece with
  | error e => rfl
  | ok cs =>
    rw [← length_of_mapM hcs] at htwo
    show Except.ok (fragmentOf key cs) =
      .ok (.anyOf ((cs.map (Fragment.field key)).map Fragment.query))
    rw [fragmentOf_of_two_le htwo, List.map_map]
    rfl

/-- The results of tokens without commas are the fields of their constraints. -/
theorem forall₂_field {ts : List (List Char)} (hcomma : ∀ t ∈ ts, ',' ∉ t) {rs : List Fragment}
    (h : List.Forall₂ (fun t r => f key t = .ok r) ts rs) :
    ∃ cs : List Constraint, rs = cs.map (.field key) := by
  induction h with
  | nil => exact ⟨[], rfl⟩
  | @cons t r ts rs hr _ ih =>
    rw [List.forall_mem_cons] at hcomma
    obtain ⟨cs, rfl⟩ := ih hcomma.2
    rw [hf.of_not_mem hcomma.1] at hr
    obtain ⟨c, -, rfl⟩ := map_eq_ok.1 hr
    exact ⟨c :: cs, rfl⟩

end IsPiecewise

/-! ### Token by token -/

theorem mem_joined_of_two_le {c : Char} {ts : List (List Char)} (h : 2 ≤ ts.length) :
    c ∈ joined c ts := by
  match ts with
  | [] => simp at h
  | [t] => simp at h
  | t :: t' :: ts => simp [joined, List.intercalate_cons_cons]

/-- **A comma list compiles token by token.** Let two tokens or more, which hold no commas, be joined
with commas. The list compiles if and only if every token compiles alone, and then to the
alternatives of the single fields that the tokens compile to, in their order. It fails if and only if
a token fails alone, and then with the error of the first such token. -/
theorem compile_joined (hf : IsCompiler f) (key : String) {ts : List (List Char)}
    (hlength : 2 ≤ ts.length) (hcomma : ∀ t ∈ ts, ',' ∉ t) :
    (∀ r, f key (joined ',' ts) = .ok r ↔
      ∃ cs, List.Forall₂ (fun t c => f key t = .ok (.field key c)) ts cs ∧
        r = .anyOf (cs.map (.single key))) ∧
    ∀ e, f key (joined ',' ts) = .error e ↔
      ∃ before t after, ts = before ++ t :: after ∧
        (∀ t' ∈ before, ∃ r, f key t' = .ok r) ∧ f key t = .error e := by
  obtain ⟨ofPiece, hpieces⟩ := hf.exists_isPiecewise
  have hne : ts ≠ [] := List.ne_nil_of_length_pos (by omega)
  have heq : f key (joined ',' ts) =
      (ts.mapM (f key)).map fun rs => .anyOf (rs.map Fragment.query) := by
    rw [hpieces.of_mem (mem_joined_of_two_le hlength), pieces_joined hne hcomma]
  have hfields (cs : List Constraint) :
      List.Forall₂ (fun t r => f key t = .ok r) ts (cs.map (.field key)) ↔
        List.Forall₂ (fun t c => f key t = .ok (.field key c)) ts cs :=
    List.forall₂_map_right_iff
  have hqueries (cs : List Constraint) :
      (cs.map (Fragment.field key)).map Fragment.query = cs.map (.single key) :=
    List.map_map
  refine ⟨fun r => ?_, fun e => ?_⟩
  · rw [heq, map_eq_ok]
    constructor
    · rintro ⟨rs, hrs, rfl⟩
      have halone := forall₂_of_mapM hrs
      obtain ⟨cs, rfl⟩ := hpieces.forall₂_field hcomma halone
      exact ⟨cs, (hfields cs).1 halone, congrArg _ (hqueries cs)⟩
    · rintro ⟨cs, hcs, rfl⟩
      exact ⟨_, mapM_of_forall₂ ((hfields cs).2 hcs), congrArg _ (hqueries cs)⟩
  · rw [heq, map_eq_error, mapM_eq_error]

/-- A list with a half-open interval and one with spaces, a list with a fraction and an interval of
decimals, and a list in which two tokens fail. -/
theorem compile_joined_mixed :
    let integers := ["4".toList, " 9 - 16".toList, "25..".toList]
    let rationals := ["1/2".toList, "0.5-2".toList]
    let faulty := ["1".toList, "x".toList, "y-2".toList]
    (∀ ts ∈ [integers, rationals, faulty], 2 ≤ ts.length ∧ ∀ t ∈ ts, ',' ∉ t) ∧
    compile (.plain Reader.integer) "n" (joined ',' integers) =
      .ok (.anyOf [.single "n" (.value (.integer 4)),
        .single "n" (.range (some (.integer 9)) (some (.integer 16))),
        .single "n" (.range (some (.integer 25)) none)]) ∧
    compileRational Reader.text "r" (joined ',' rationals) =
      .ok (.anyOf [.single "r" (.value (.string "1/2")),
        .single "r" (.range (some (.string "0.5")) (some (.string "2")))]) ∧
    compile (.plain Reader.integer) "n" (joined ',' faulty) = .error (.invalidNumber "x") := by
  intro integers rationals faulty
  have htokens : ∀ ts ∈ [integers, rationals, faulty], 2 ≤ ts.length ∧ ∀ t ∈ ts, ',' ∉ t := by
    decide
  obtain ⟨hlength, hcomma⟩ := htokens integers (by simp)
  obtain ⟨hlength', hcomma'⟩ := htokens rationals (by simp)
  obtain ⟨hlength'', hcomma''⟩ := htokens faulty (by simp)
  refine ⟨htokens, ?_, ?_, ?_⟩
  · exact ((compile_joined (.plain (.plain Reader.integer)) "n" hlength hcomma).1 _).2
      ⟨[.value (.integer 4), .range (some (.integer 9)) (some (.integer 16)),
        .range (some (.integer 25)) none], .cons rfl (.cons rfl (.cons rfl .nil)), rfl⟩
  · exact ((compile_joined (.rational Reader.text) "r" hlength' hcomma').1 _).2
      ⟨[.value (.string "1/2"), .range (some (.string "0.5")) (some (.string "2"))],
        .cons rfl (.cons rfl .nil), rfl⟩
  · exact ((compile_joined (.plain (.plain Reader.integer)) "n" hlength'' hcomma'').2 _).2
      ⟨["1".toList], "x".toList, ["y-2".toList], rfl,
        List.forall_mem_singleton.2 ⟨.field "n" (.value (.integer 1)), rfl⟩, rfl⟩

end SearchBox.Range
