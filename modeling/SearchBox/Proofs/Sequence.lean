import SearchBox.Sequence
import SearchBox.Proofs.Range
import SearchBox.Proofs.Text

/-!
# The parts of a sequence

No token of a part holds a comma: a part is either a group, whose items are taken apart at commas,
or a piece between commas. So the constraint on one place is never a list of alternatives, and the
error for that case (`constraintOf`) does not come up. Each part compiles to a plain query.
-/

namespace SearchBox.Sequence

open Text

/-! ### Parts -/

theorem not_mem_of_mem_plainParts {cs part : List Char} (h : part ∈ plainParts cs) :
    ',' ∉ part := by
  obtain ⟨hmem, -⟩ := List.mem_filter.1 h
  obtain ⟨piece, hpiece, rfl⟩ := List.mem_map.1 hmem
  exact fun hc => not_mem_of_mem_pieces hpiece (mem_of_mem_trim hc)

/-- A part opens a bracket or has no comma. -/
theorem opens_or_not_mem {cs part : List Char} (h : part ∈ parts cs) :
    Token.opensBracket part = true ∨ ',' ∉ part := by
  obtain ⟨piece, -, hpart⟩ := List.mem_flatMap.1 h
  split at hpart
  · rename_i hopen
    rw [List.mem_singleton.1 hpart]
    exact Or.inl hopen
  · exact Or.inr (not_mem_of_mem_plainParts hpart)

theorem opensBracket_trim {cs : List Char} (h : Token.opensBracket cs = true) :
    Token.opensBracket (trim cs) = true := by
  unfold Token.opensBracket at h
  split at h
  · rename_i rest
    obtain ⟨rest', hrest⟩ := exists_trim_cons rest (show isBlank '[' = false by decide)
    rw [hrest]
    rfl
  · cases h

/-! ### The constraint of a token -/

/-- The constraint of a token without a comma is that of a piece. -/
theorem constraintOf_of_not_mem (read : Reader) (key : String) {token : List Char}
    (h : ',' ∉ token) :
    constraintOf read key token = Range.ofPiece (.plain read) (erase ' ' token) := by
  rw [constraintOf, Range.compile_of_not_mem h]
  cases Range.ofPiece (.plain read) (erase ' ' token) <;> rfl

theorem constraintOf_blamesUser {read : Reader} (hread : read.BlamesUser) (key : String)
    {token : List Char} (h : ',' ∉ token) :
    FailsOnly (·.isInput = true) (constraintOf read key token) := by
  rw [constraintOf_of_not_mem read key h]
  exact Range.failsOnly_ofPiece hread _

theorem Element.reader_blamesUser (e : Element) : e.reader.BlamesUser := by
  cases e with
  | integer => exact Reader.integer_blamesUser
  | text => exact Reader.text_blamesUser

/-! ### Merging the parts -/

/-- The query with what the parts have compiled to: a single one is merged, several are set as
alternatives. -/
def gathered (q : Query) : List Query → Query
  | [] => q
  | [s] => q.update s
  | ss => q.setAlternatives ss

/-- What the parts make of the empty query is merged into any other query. -/
theorem gathered_eq_update (q : Query) (ss : List Query) :
    gathered q ss = q.update (gathered .empty ss) := by
  match ss with
  | [] => exact (Query.update_empty q).symm
  | [s] => exact congrArg q.update (Query.empty_update s).symm
  | s :: t :: ss =>
    show q.setAlternatives (s :: t :: ss) = q.update (Query.empty.setAlternatives (s :: t :: ss))
    rw [← Query.update_anyOf, ← Query.update_anyOf, Query.empty_update]

theorem gathered_of_two_le (q : Query) {ss : List Query} (h : 2 ≤ ss.length) :
    gathered q ss = q.setAlternatives ss := by
  match ss with
  | [] => simp at h
  | [s] => simp at h
  | s :: t :: ss => rfl

variable {compile : List Char → Except Error Query} {ps : List (List Char)}

/-- All parts are compiled before any of them is merged. -/
theorem absorb_eq_after (compile : List Char → Except Error Query) (ps : List (List Char)) :
    absorb compile ps = .after (ps.mapM compile) fun ss => .change (gathered · ss) := by
  match ps with
  | [] => rfl
  | [part] =>
    rw [absorb, List.mapM_cons]
    cases compile part <;> rfl
  | part :: part' :: rest =>
    show Write.after ((part :: part' :: rest).mapM compile) _ = _
    cases hss : (part :: part' :: rest).mapM compile with
    | error e => rfl
    | ok ss =>
      have htwo : 2 ≤ ss.length := by simp [length_of_mapM hss]
      exact congrArg Write.change (funext fun q => (gathered_of_two_le q htwo).symm)

theorem absorb_eq_ok {q d : Query} :
    absorb compile ps q = (d, .ok ()) ↔ ∃ ss, ps.mapM compile = .ok ss ∧ gathered q ss = d := by
  rw [absorb_eq_after, Write.after_change_eq_ok]

theorem absorb_eq_error {q : Query} {e : Error} :
    (absorb compile ps q).2 = .error e ↔ ps.mapM compile = .error e := by
  rw [absorb_eq_after, Write.after_change_eq_error]

theorem absorb_eq_update {d : Query} (h : absorb compile ps .empty = (d, .ok ())) (q : Query) :
    absorb compile ps q = (q.update d, .ok ()) := by
  obtain ⟨ss, hss, rfl⟩ := absorb_eq_ok.1 h
  exact absorb_eq_ok.2 ⟨ss, hss, gathered_eq_update q ss⟩

theorem absorb_simple (hplain : ∀ part ∈ ps, ∀ s, compile part = .ok s → s.Plain) {d : Query}
    (h : absorb compile ps .empty = (d, .ok ())) : d.Simple := by
  match ps with
  | [] =>
    cases h
    exact Query.simple_empty
  | [part] =>
    obtain ⟨s, hs, rfl⟩ := Write.after_change_eq_ok.1 h
    rw [Query.empty_update]
    exact .fields (hplain part (by simp) s hs).alternatives_eq
  | part :: part' :: rest =>
    obtain ⟨qs, hqs, rfl⟩ := Write.after_change_eq_ok.1 h
    rw [← Query.update_anyOf, Query.empty_update]
    refine .choice ?_ fun s hs => ?_
    · rw [length_of_mapM hqs]
      simp
    · obtain ⟨p, hp, hps⟩ := exists_of_mem_mapM hqs hs
      exact hplain p hp s hps

theorem failsOnly_absorb {P : Error → Prop} (h : ∀ part ∈ ps, FailsOnly P (compile part))
    (q : Query) : FailsOnly P (absorb compile ps q).2 := by
  intro e he
  exact FailsOnly.mapM h e (absorb_eq_error.1 he)

/-! ### The first elements of an array -/

namespace Leading

variable (l : Leading) (key : String)

theorem plain_ofConstraints {cs : List Constraint} (h : cs ≠ []) :
    (l.ofConstraints key cs).Plain := by
  obtain ⟨c, rest, rfl⟩ := List.exists_cons_of_ne_nil h
  have hkey : elementKey key ((0 : Nat) + l.shift) ∈
      (OrderedMap.ofList ((c :: rest).zipIdx.map fun e =>
        (elementKey key (e.2 + l.shift), e.1))).keys := by
    rw [OrderedMap.mem_keys_ofList]
    simp
  unfold ofConstraints
  simp only
  split
  · exact ⟨OrderedMap.isEmpty_eq_false_of_mem_keys hkey, rfl⟩
  · exact ⟨OrderedMap.isEmpty_eq_false_of_mem_keys
      (OrderedMap.mem_keys_insert.2 (Or.inr hkey)), rfl⟩

theorem plain_compilePart {part : List Char} {s : Query} (h : l.compilePart key part = .ok s) :
    s.Plain := by
  unfold compilePart at h
  split at h
  · obtain ⟨cs, hcs, rfl⟩ := map_eq_ok.1 h
    refine l.plain_ofConstraints key fun hnil => pieces_ne_nil ',' (inside part) ?_
    exact List.length_eq_zero_iff.1 ((length_of_mapM hcs).symm.trans (by simp [hnil]))
  · obtain ⟨c, -, rfl⟩ := map_eq_ok.1 h
    exact Query.plain_single _ c

theorem compilePart_blamesUser {part : List Char}
    (h : Token.opensBracket part = true ∨ ',' ∉ part) :
    FailsOnly (·.isInput = true) (l.compilePart key part) := by
  have hread := l.element.reader_blamesUser
  unfold compilePart
  split
  · exact (FailsOnly.mapM fun piece hpiece =>
      constraintOf_blamesUser hread key (not_mem_of_mem_pieces hpiece)).map _
  · rename_i hopen
    exact (constraintOf_blamesUser hread key (h.resolve_left hopen)).map _

end Leading

/-! ### The beginning of a text -/

namespace Beginning

variable (b : Beginning) (key : String)

theorem start_blamesUser (typed : List (List Char)) :
    FailsOnly (·.isInput = true) (b.start typed) := by
  refine .ite (.error rfl) (FailsOnly.map ?_ _)
  exact FailsOnly.mapM fun token _ => b.element.reader_blamesUser token

theorem plain_compileGroup {typed : List (List Char)} {s : Query}
    (h : b.compileGroup key typed = .ok s) : s.Plain := by
  unfold compileGroup at h
  split at h
  · cases h
  · split at h <;>
      · obtain ⟨c, -, rfl⟩ := map_eq_ok.1 h
        exact Query.plain_single _ c

theorem compileGroup_blamesUser {typed : List (List Char)} (hne : typed ≠ [])
    (h : ∀ token ∈ typed, ',' ∉ token) :
    FailsOnly (·.isInput = true) (b.compileGroup key typed) := by
  unfold compileGroup
  refine .ite (.error rfl) ?_
  split
  · rename_i first only hfirst honly
    -- A single item cannot be one of the leading elements, since an item was typed.
    have hmem : only ∈ typed := by
      rcases List.append_eq_singleton_iff.1 honly with ⟨-, htyped⟩ | ⟨-, htyped⟩
      · simp [htyped]
      · exact absurd htyped hne
    exact (constraintOf_blamesUser b.element.reader_blamesUser first (h only hmem)).map _
  · exact (b.start_blamesUser typed).map _

theorem plain_compilePart {part : List Char} {s : Query} (h : b.compilePart key part = .ok s) :
    s.Plain := by
  unfold compilePart at h
  simp only at h
  split at h
  · cases h
  split at h
  · exact b.plain_compileGroup key h
  split at h <;>
    · obtain ⟨c, -, rfl⟩ := map_eq_ok.1 h
      exact Query.plain_single _ c

theorem compilePart_blamesUser {part : List Char}
    (h : Token.opensBracket part = true ∨ ',' ∉ part) :
    FailsOnly (·.isInput = true) (b.compilePart key part) := by
  unfold compilePart
  simp only
  refine .ite (.error rfl) ?_
  split
  · refine b.compileGroup_blamesUser key (by simp [pieces_ne_nil]) fun token htoken => ?_
    obtain ⟨piece, hpiece, rfl⟩ := List.mem_map.1 htoken
    exact fun hc => not_mem_of_mem_pieces hpiece (mem_of_mem_trim hc)
  · rename_i hopen
    have hcomma : ',' ∉ trim part := fun hc =>
      h.resolve_left (fun ho => hopen (opensBracket_trim ho)) (mem_of_mem_trim hc)
    split
    · exact (constraintOf_blamesUser b.element.reader_blamesUser _ hcomma).map _
    · exact (b.start_blamesUser _).map _

end Beginning

end SearchBox.Sequence
