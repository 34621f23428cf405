import SearchBox.Proofs.CommaList
import SearchBox.Proofs.Grammar
import SearchBox.Proofs.Numeral

/-!
# Boxes of signed integers

A piece of a list of signed integers is a numeral, or two numerals with a dash between, and the
integers fit (`SignedPiece`). The box takes a list of such pieces and no other text: its grammar lets
digits of other scripts and integers of any size pass, and its reader refuses these afterwards
(`SignedPiece.iff_compiled`). What it stores for several pieces are the alternatives that it would store
for each of them.
-/

namespace SearchBox

open Text Number Token

/-! ### Numerals and the grammar -/

theorem Number.Numeral.isSigned {cs : List Char} {n : Int} (h : Numeral cs n) :
    isSigned cs = true := by
  cases h with
  | plain hne hds => exact isSigned_of_isDigits (isDigits_of_isAsciiDigit hne hds)
  | negative hne hds => exact isDigits_of_isAsciiDigit hne hds

/-- A signed integer of the grammar is read if it is a numeral and its integer fits. -/
theorem readInteger?_of_isSigned {cs : List Char} {n : Int} (h : isSigned cs = true) :
    readInteger? cs = some n ↔ Numeral cs n ∧ Fits n := by
  refine readInteger?_eq_some fun hhead => ?_
  rcases mem_of_isSigned h (List.mem_of_mem_head? hhead) with hc | hc <;> cases hc

theorem Reader.readInteger_of_isSigned {cs : List Char} {n : Int} (h : isSigned cs = true) :
    Reader.readInteger cs = .ok n ↔ Numeral cs n ∧ Fits n := by
  have hblank : ∀ c ∈ cs, isBlank c = false := by
    intro c hc
    rcases mem_of_isSigned h hc with rfl | hdigit
    · rfl
    · exact not_blank_of_isDigit hdigit
  rw [Reader.readInteger, trim_of_not_blank hblank, Reader.orInvalid_eq_ok,
    readInteger?_of_isSigned h]

theorem Reader.integer_of_numeral {cs : List Char} {n : Int} (h : Numeral cs n) (hn : Fits n) :
    Reader.integer cs = .ok (.integer n) := by
  rw [Reader.integer, Reader.readInteger_of_numeral h hn]
  rfl

/-- A piece of signed integers is compiled as its reading says, with digits of any script. -/
theorem Range.ofPiece_of_isSigned {p : List Char} {r : Reading} (h : r.Spells isSigned p)
    (read : Reader) : Range.ofPiece (.plain read) p = r.constraint read := by
  rw [← h.text_eq]
  exact Range.ofPiece_text read fun t ht => unbroken_of_isSigned (h.isToken_of_mem t ht)

/-! ### Pieces -/

/-- What a piece of a list of signed integers stands for: a numeral for its integer, and two numerals
with a dash between for an interval. -/
inductive SignedPiece : List Char → Constraint → Prop
  | value {a : List Char} {n : Int} (ha : Numeral a n) (hn : Fits n) :
    SignedPiece a (.value (.integer n))
  | interval {a b : List Char} {low high : Int} (ha : Numeral a low) (hlow : Fits low)
    (hb : Numeral b high) (hhigh : Fits high) :
    SignedPiece (a ++ '-' :: b) (.range (some (.integer low)) (some (.integer high)))

namespace SignedPiece

variable {p : List Char} {c : Constraint}

theorem compiled (h : SignedPiece p c) :
    isSignedPiece p = true ∧ Range.ofPiece (.plain Reader.integer) p = .ok c := by
  cases h with
  | value ha hn =>
    refine ⟨isSignedPiece_iff.2 (.inl ha.isSigned), ?_⟩
    rw [Range.ofPiece_of_isSigned (.value ha.isSigned), Reading.constraint,
      Reader.integer_of_numeral ha hn]
    rfl
  | @interval a b low high ha hlow hb hhigh =>
    refine ⟨isSignedPiece_iff.2 (.inr ⟨a, b, rfl, ha.isSigned, hb.isSigned⟩), ?_⟩
    rw [Range.ofPiece_of_isSigned (.interval ha.isSigned hb.isSigned), Reading.constraint,
      Reader.integer_of_numeral ha hlow, Reader.integer_of_numeral hb hhigh]
    rfl

theorem of_compiled (haccepts : isSignedPiece p = true)
    (h : Range.ofPiece (.plain Reader.integer) p = .ok c) : SignedPiece p c := by
  rcases isSignedPiece_iff.1 haccepts with hp | ⟨a, b, rfl, ha, hb⟩
  · rw [Range.ofPiece_of_isSigned (.value hp)] at h
    obtain ⟨v, hv, rfl⟩ := map_eq_ok.1 h
    obtain ⟨n, hn, rfl⟩ := map_eq_ok.1 hv
    obtain ⟨hnumeral, hfits⟩ := (Reader.readInteger_of_isSigned hp).1 hn
    exact .value hnumeral hfits
  · rw [Range.ofPiece_of_isSigned (.interval ha hb)] at h
    obtain ⟨v, hv, h'⟩ := bind_eq_ok.1 h
    obtain ⟨w, hw, rfl⟩ := map_eq_ok.1 h'
    obtain ⟨low, hlow, rfl⟩ := map_eq_ok.1 hv
    obtain ⟨high, hhigh, rfl⟩ := map_eq_ok.1 hw
    obtain ⟨hnumerala, hfitsa⟩ := (Reader.readInteger_of_isSigned ha).1 hlow
    obtain ⟨hnumeralb, hfitsb⟩ := (Reader.readInteger_of_isSigned hb).1 hhigh
    exact .interval hnumerala hfitsa hnumeralb hfitsb

/-- **Grammar and reader together take the pieces and no other text.** -/
theorem iff_compiled : SignedPiece p c ↔
    isSignedPiece p = true ∧ Range.ofPiece (.plain Reader.integer) p = .ok c :=
  ⟨compiled, fun h => of_compiled h.1 h.2⟩

/-- A piece is made of ASCII digits and dashes. -/
theorem of_mem (h : SignedPiece p c) {x : Char} (hx : x ∈ p) : x = '-' ∨ x.isDigit = true := by
  cases h with
  | value ha _ => exact ha.of_mem hx
  | interval ha _ hb _ =>
    rcases List.mem_append.1 hx with hx | hx
    · exact ha.of_mem hx
    · rcases List.mem_cons.1 hx with rfl | hx
      · exact .inl rfl
      · exact hb.of_mem hx

theorem ne_nil (h : SignedPiece p c) : p ≠ [] := by
  cases h with
  | value ha _ => exact ha.ne_nil
  | interval => simp

theorem not_blank (h : SignedPiece p c) : ∀ x ∈ p, isBlank x = false := by
  intro x hx
  rcases h.of_mem hx with rfl | hdigit
  · rfl
  · exact not_blank_of_isAsciiDigit hdigit

/-- Cleaning leaves a piece as it is. -/
theorem prepare_eq (h : SignedPiece p c) {policy : Policy} (hpolicy : policy.Cleans) :
    policy.prepare p = p := by
  have htrim : trim p = p := trim_of_not_blank h.not_blank
  have hclean : ∀ x ∈ p, Cleaning.isStripped false x = false ∧ x ≠ '.' := by
    intro x hx
    have hblank := h.not_blank x hx
    rcases h.of_mem hx with rfl | hdigit
    · exact ⟨rfl, by decide⟩
    · have hne {y : Char} (hy : y.isDigit = false) : x ≠ y := by
        rintro rfl
        rw [hdigit] at hy
        cases hy
      exact ⟨by simp [Cleaning.isStripped, hblank, hne (y := '<') rfl, hne (y := '>') rfl],
        hne rfl⟩
  rw [hpolicy.prepare_eq_trim (by rwa [htrim]), htrim]

end SignedPiece

/-! ### Lists -/

/-- The text is a comma list of the pieces, and these stand for the constraints. -/
structure SignedList (text : List Char) (ps : List (List Char)) (cs : List Constraint) : Prop where
  ne_nil : ps ≠ []
  joined_eq : joined ',' ps = text
  forall₂ : List.Forall₂ SignedPiece ps cs

namespace SignedList

variable {text : List Char} {ps : List (List Char)} {cs : List Constraint}

/-- A text is such a list in one way only: the pieces are those between its commas. -/
theorem pieces_eq (h : SignedList text ps cs) : pieces ',' text = ps := by
  have hcomma : ∀ p ∈ ps, ',' ∉ p := by
    have hboth : List.Forall₂ (fun p c => ',' ∉ p ∧ SignedPiece p c) ps cs := by
      refine h.forall₂.imp fun p c hpc => ⟨fun hmem => ?_, hpc⟩
      rcases hpc.of_mem hmem with heq | hdigit
      · cases heq
      · cases hdigit
    exact ((List.forall₂_and_left _ _).1 hboth).1
  rw [← h.joined_eq, pieces_joined h.ne_nil hcomma]

theorem iff_pieces : SignedList text ps cs ↔
    pieces ',' text = ps ∧ List.Forall₂ SignedPiece ps cs := by
  refine ⟨fun h => ⟨h.pieces_eq, h.forall₂⟩, ?_⟩
  rintro ⟨rfl, h⟩
  exact ⟨pieces_ne_nil ',' text, joined_pieces ',' text, h⟩

theorem singleton {p : List Char} {c : Constraint} (h : SignedPiece p c) : SignedList p [p] [c] :=
  ⟨by simp, by simp [joined], .cons h .nil⟩

end SignedList

/-! ### Calls -/

namespace Box

variable {form : Form} {args : Arguments} {field raw : String}

theorem call_signedIntegers_ok_iff
    (ht : Kind.signedIntegers.box.typed? form args = some (field, raw))
    (hspaces : Cleaning.checkSpaces raw.toList = .ok ()) :
    (Kind.signedIntegers.box.call form .empty args).result = .ok () ↔
      ∃ ps cs, SignedList (Kind.signedIntegers.policy.prepare raw.toList) ps cs := by
  rw [isCommaList_signedIntegers.call_ok_iff ht hspaces]
  simp only [← SignedPiece.iff_compiled, SignedList.iff_pieces, exists_and_left, exists_eq_left']
  rfl

/-- What the box stores for a list are the constraints that its pieces stand for. -/
theorem call_of_signedList (ht : Kind.signedIntegers.box.typed? form args = some (field, raw))
    (hspaces : Cleaning.checkSpaces raw.toList = .ok ()) {ps : List (List Char)}
    {cs : List Constraint}
    (h : SignedList (Kind.signedIntegers.policy.prepare raw.toList) ps cs) :
    (Kind.signedIntegers.box.call form .empty args).result = .ok () ∧
      (Kind.signedIntegers.box.call form .empty args).query =
        (Range.fragmentOf (Kind.signedIntegers.box.contextOf args field).key cs).query := by
  refine isCommaList_signedIntegers.call_of_forall₂ ht hspaces ?_
  simp only [← SignedPiece.iff_compiled]
  exact h.pieces_eq ▸ h.forall₂

/-- A piece alone is stored under the key. -/
theorem call_signedIntegers_piece
    (hfield : Kind.signedIntegers.box.field? args = some field) (form : Form) {p : List Char}
    {c : Constraint} (h : SignedPiece p c) :
    (Kind.signedIntegers.box.call (form.set field (String.ofList p)) .empty args).result = .ok () ∧
      (Kind.signedIntegers.box.call (form.set field (String.ofList p)) .empty args).query =
        .single (Kind.signedIntegers.box.contextOf args field).key c := by
  have ht : Kind.signedIntegers.box.typed? (form.set field (String.ofList p)) args =
      some (field, String.ofList p) := by
    refine typed?_eq_some.2 ⟨hfield, Form.get?_set_self form field _, ?_⟩
    simpa using h.ne_nil
  have hspaces : Cleaning.checkSpaces (String.ofList p).toList = .ok () :=
    Cleaning.checkSpaces_of_not_blank (by simpa using h.not_blank)
  have hlist :
      SignedList (Kind.signedIntegers.policy.prepare (String.ofList p).toList) [p] [c] := by
    have hprepare : Kind.signedIntegers.policy.prepare p = p :=
      h.prepare_eq isCommaList_signedIntegers.cleans
    rw [String.toList_ofList, hprepare]
    exact .singleton h
  exact call_of_signedList ht hspaces hlist

/-- **The box of signed integers takes the comma lists of its pieces, and means what they stand for.**
On the empty query, a text that was typed and has no blanks between digits is taken if and only if it
is a list of signed integers and intervals once it is cleaned. What is stored is the constraint of a
single piece, or the constraints of several pieces as alternatives in their order, and each of these is
what the box stores for its piece alone. -/
theorem call_signedIntegers
    (ht : Kind.signedIntegers.box.typed? form args = some (field, raw))
    (hspaces : Cleaning.checkSpaces raw.toList = .ok ()) :
    let box := Kind.signedIntegers.box
    let key := (box.contextOf args field).key
    let text := box.policy.prepare raw.toList
    let out := box.call form .empty args
    (out.result = .ok () ↔ ∃ ps cs, SignedList text ps cs) ∧
    ∀ ps cs, SignedList text ps cs →
      out.query = (Range.fragmentOf key cs).query ∧
      List.Forall₂ (fun p c =>
        let alone := box.call (form.set field (String.ofList p)) .empty args
        alone.result = .ok () ∧ alone.query = .single key c) ps cs := by
  intro box key text out
  have hfield : box.field? args = some field := (typed?_eq_some.1 ht).1
  refine ⟨call_signedIntegers_ok_iff ht hspaces, fun ps cs h => ⟨?_, ?_⟩⟩
  · exact (call_of_signedList ht hspaces h).2
  · exact h.forall₂.imp fun p c hpc => call_signedIntegers_piece hfield form hpc

/-- An interval with two negative ends, one with dots and blanks, and the least integer. -/
theorem call_signedIntegers_least :
    let box := Kind.signedIntegers.box
    let form := Form.ofList [("n", "-5--3, 2 .. 7,-9223372036854775808")]
    let args : Arguments := { field := some "n" }
    let out := box.call form .empty args
    box.typed? form args = some ("n", "-5--3, 2 .. 7,-9223372036854775808") ∧
    Cleaning.checkSpaces "-5--3, 2 .. 7,-9223372036854775808".toList = .ok () ∧
    out.result = .ok () ∧
    out.query = .anyOf [.single "n" (.range (some (.integer (-5))) (some (.integer (-3)))),
      .single "n" (.range (some (.integer 2)) (some (.integer 7))),
      .single "n" (.value (.integer leastInteger))] := by
  intro box form args out
  have ht : box.typed? form args = some ("n", "-5--3, 2 .. 7,-9223372036854775808") := by decide
  have hspaces : Cleaning.checkSpaces "-5--3, 2 .. 7,-9223372036854775808".toList = .ok () := by
    decide
  have hlist : SignedList (box.policy.prepare "-5--3, 2 .. 7,-9223372036854775808".toList)
      ["-5--3".toList, "2-7".toList, "-9223372036854775808".toList]
      [.range (some (.integer (-5))) (some (.integer (-3))),
        .range (some (.integer 2)) (some (.integer 7)), .value (.integer leastInteger)] := by
    refine ⟨by decide, by decide, .cons ?_ (.cons ?_ (.cons ?_ .nil))⟩
    · exact .interval (numeral_decimal (-5)) (by decide) (numeral_decimal (-3)) (by decide)
    · exact .interval (numeral_decimal 2) (by decide) (numeral_decimal 7) (by decide)
    · exact .value (numeral_decimal leastInteger) (by decide)
  obtain ⟨hok, hstored⟩ := call_signedIntegers ht hspaces
  exact ⟨ht, hspaces, hok.2 ⟨_, _, hlist⟩, (hstored _ _ hlist).1⟩

end Box

end SearchBox
