import SearchBox.Proofs.SignedList
import SearchBox.Proofs.Stored

/-!
# The integers that a list names

A piece of a list of integers is a numeral, a numeral with a dash behind it, or two numerals with a
dash between, and it names their integers (`Names`). A box of integers stores the integers that the
pieces name, and no others (`Box.stores_iff_names`). The box with bounds takes a text if and only if
the text passes one of the two grammars of integers and all integers that it names are stored
integers between the bounds (`Box.call_boundedIntegers`). The box of unsigned integers stores a
negative integer for every piece that is a dash and digits, for the grammar lets the lower end of an
interval be missing, while the dash in front is read as a sign (`Box.integers_negative_iff`).
-/

namespace SearchBox

open Text Number Token

/-! ### Readers of integers -/

/-- The reader takes the tokens of the integers with the property, and no other tokens. -/
def Reader.Takes (read : Reader) (P : Int → Prop) : Prop :=
  ∀ t v, read t = .ok v ↔ ∃ n, Reader.readInteger t = .ok n ∧ P n ∧ Scalar.integer n = v

theorem Reader.integer_takes : Reader.integer.Takes fun _ => True := by
  intro t v
  rw [Reader.integer, map_eq_ok]
  simp only [true_and]

theorem Kind.boundedInteger_takes (min max : Int) :
    (Kind.boundedInteger min max).Takes fun n => min ≤ n ∧ n ≤ max := by
  intro t v
  rw [Kind.boundedInteger, bind_eq_ok]
  refine exists_congr fun n => and_congr_right fun _ => ?_
  simp only [Bool.or_eq_true, decide_eq_true_eq]
  split
  · rename_i hout
    simp only [reduceCtorEq, false_iff]
    rintro ⟨hin, -⟩
    omega
  · rename_i hin
    have hbetween : min ≤ n ∧ n ≤ max := by omega
    simp only [hbetween, and_self, true_and, Except.ok.injEq]

/-! ### Pieces -/

/-- The piece names the integer: it is put together from signed integers, and one of them is a
numeral of the integer. -/
def Names (p : List Char) (n : Int) : Prop :=
  ∃ r : Reading, r.Spells isSigned p ∧ ∃ t ∈ r.tokens, Numeral t n

variable {p t : List Char} {r : Reading} {n : Int} {c : Constraint}

theorem names_iff (hr : r.Spells isSigned p) : Names p n ↔ ∃ t ∈ r.tokens, Numeral t n := by
  constructor
  · rintro ⟨r', hr', h⟩
    rwa [hr'.unique (fun _ => unbroken_of_isSigned) hr] at h
  · exact fun h => ⟨r, hr, h⟩

theorem Number.Numeral.names (h : Numeral p n) : Names p n :=
  ⟨.value p, .value h.isSigned, p, List.mem_singleton_self p, h⟩

/-- What one of the grammars of integers accepts is a dash, or put together from signed integers. -/
theorem exists_spells_of_accepted (h : isIntegerPiece p = true ∨ isSignedPiece p = true) :
    p = ['-'] ∨ ∃ r : Reading, r.Spells isSigned p := by
  rcases h with h | h
  · rcases isIntegerPiece_iff.1 h with rfl | h | ⟨r, hr⟩
    · exact .inl rfl
    · exact .inr ⟨.value p, .value h⟩
    · exact .inr ⟨r, hr.text_eq, fun t ht => isSigned_of_isDigits (hr.isToken_of_mem t ht)⟩
  · rcases isSignedPiece_iff.1 h with h | ⟨a, b, rfl, ha, hb⟩
    · exact .inr ⟨.value p, .value h⟩
    · exact .inr ⟨.interval a b, .interval ha hb⟩

/-- A numeral with ASCII digits is one. -/
theorem exists_numeral (ht : isSigned t = true)
    (hascii : ∀ x ∈ t, isDigit x = true → x.isDigit = true) : ∃ n, Numeral t n := by
  unfold isSigned dropMinus at ht
  split at ht
  · obtain ⟨hne, hds⟩ := isDigits_eq_true.1 ht
    exact ⟨_, .negative hne fun d hd => hascii d (List.mem_cons_of_mem _ hd) (hds d hd)⟩
  · obtain ⟨hne, hds⟩ := isDigits_eq_true.1 ht
    exact ⟨_, .plain hne fun d hd => hascii d hd (hds d hd)⟩

theorem nonneg_of_isDigits (h : Numeral t n) (ht : isDigits t = true) : 0 ≤ n := by
  cases h with
  | plain => exact Int.natCast_nonneg _
  | negative => exact absurd (List.mem_cons_self) (not_mem_of_isDigits rfl ht)

/-- **A piece of unsigned integers names a negative integer only if it is a numeral of it.** -/
theorem names_iff_numeral (hp : isIntegerPiece p = true) (hn : n < 0) :
    Names p n ↔ Numeral p n := by
  refine ⟨?_, Numeral.names⟩
  rintro ⟨r, hr, t, ht, hnumeral⟩
  rcases isIntegerPiece_iff.1 hp with rfl | hp | ⟨r', hr'⟩
  · have hsub : t ⊆ ['-'] := hr.text_eq ▸ Reading.subset_text ht
    obtain ⟨d, hd, hdigit⟩ := hnumeral.exists_digit
    rw [List.mem_singleton.1 (hsub hd)] at hdigit
    cases hdigit
  · obtain rfl := hr.unique (fun _ => unbroken_of_isSigned) (.value hp)
    obtain rfl := List.mem_singleton.1 ht
    exact hnumeral
  · have hsigned : r'.Spells isSigned p :=
      ⟨hr'.text_eq, fun t ht => isSigned_of_isDigits (hr'.isToken_of_mem t ht)⟩
    obtain rfl := hr.unique (fun _ => unbroken_of_isSigned) hsigned
    have hnonneg := nonneg_of_isDigits hnumeral (hr'.isToken_of_mem t ht)
    omega

section Reads

variable {read : Reader} {P : Int → Prop} (hread : read.Takes P)

include hread

theorem read_eq_integer_iff (ht : isSigned t = true) :
    read t = .ok (.integer n) ↔ Numeral t n ∧ Fits n ∧ P n := by
  rw [hread]
  constructor
  · rintro ⟨m, hm, hP, heq⟩
    cases heq
    obtain ⟨hnumeral, hfits⟩ := (Reader.readInteger_of_isSigned ht).1 hm
    exact ⟨hnumeral, hfits, hP⟩
  · rintro ⟨hnumeral, hfits, hP⟩
    exact ⟨n, Reader.readInteger_of_numeral hnumeral hfits, hP, rfl⟩

theorem exists_read_iff (ht : isSigned t = true) :
    (∃ v, read t = .ok v) ↔ ∃ n, Numeral t n ∧ Fits n ∧ P n := by
  constructor
  · rintro ⟨v, hv⟩
    obtain ⟨n, -, -, rfl⟩ := (hread t v).1 hv
    exact ⟨n, (read_eq_integer_iff hread ht).1 hv⟩
  · rintro ⟨n, h⟩
    exact ⟨.integer n, (read_eq_integer_iff hread ht).2 h⟩

/-- A dash alone is not compiled. -/
theorem ofPiece_dash_ne_ok : Range.ofPiece (.plain read) ['-'] ≠ .ok c := by
  intro h
  obtain ⟨v, hv, -⟩ := map_eq_ok.1 (show (read ['-']).map .value = .ok c from h)
  obtain ⟨n, hn, -⟩ := (hread _ _).1 hv
  cases hn

/-- **What is stored for a piece are the integers that it names.** -/
theorem stores_iff_names (hr : r.Spells isSigned p) (hc : Range.ofPiece (.plain read) p = .ok c) :
    c.Stores (.integer n) ↔ Names p n := by
  rw [Range.ofPiece_of_isSigned hr] at hc
  rw [Reading.stores_iff hc, names_iff hr]
  refine exists_congr fun t => and_congr_right fun ht => ?_
  have hsigned := hr.isToken_of_mem t ht
  rw [read_eq_integer_iff hread hsigned, and_iff_left_iff_imp]
  intro hn
  obtain ⟨m, hm, hfits⟩ :=
    (exists_read_iff hread hsigned).1 (Reading.exists_constraint_iff.1 ⟨c, hc⟩ t ht)
  rwa [hn.unique hm]

/-- **A piece is compiled if and only if all integers that it names may be stored.** The digits must
be ASCII ones, and there must be some. -/
theorem exists_ofPiece_iff (hp : p = ['-'] ∨ ∃ r : Reading, r.Spells isSigned p) :
    (∃ c, Range.ofPiece (.plain read) p = .ok c) ↔
      p ≠ ['-'] ∧ (∀ x ∈ p, isDigit x = true → x.isDigit = true) ∧
        ∀ n, Names p n → Fits n ∧ P n := by
  rcases hp with rfl | ⟨r, hr⟩
  · constructor
    · rintro ⟨c, hc⟩
      exact absurd hc (ofPiece_dash_ne_ok hread)
    · rintro ⟨hne, -⟩
      exact absurd rfl hne
  · have hcompiled : (∃ c, Range.ofPiece (.plain read) p = .ok c) ↔
        ∀ t ∈ r.tokens, ∃ n, Numeral t n ∧ Fits n ∧ P n := by
      rw [Range.ofPiece_of_isSigned hr, Reading.exists_constraint_iff]
      exact forall₂_congr fun t ht => exists_read_iff hread (hr.isToken_of_mem t ht)
    rw [hcompiled]
    constructor
    · intro h
      refine ⟨?_, fun x hx hdigit => ?_, fun n hn => ?_⟩
      · rintro rfl
        obtain ⟨c, hc⟩ := hcompiled.2 h
        exact ofPiece_dash_ne_ok hread hc
      · rcases Reading.mem_text (hr.text_eq ▸ hx) with rfl | ⟨t, ht, hxt⟩
        · cases hdigit
        · obtain ⟨n, hn, -⟩ := h t ht
          rcases hn.of_mem hxt with rfl | hascii
          · cases hdigit
          · exact hascii
      · obtain ⟨t, ht, hnumeral⟩ := (names_iff hr).1 hn
        obtain ⟨m, hm, hfits⟩ := h t ht
        rwa [hnumeral.unique hm]
    · rintro ⟨-, hascii, hnames⟩ t ht
      have hsub : t ⊆ p := hr.text_eq ▸ Reading.subset_text ht
      obtain ⟨n, hn⟩ := exists_numeral (hr.isToken_of_mem t ht) fun x hx => hascii x (hsub hx)
      exact ⟨n, hn, hnames n ((names_iff hr).2 ⟨t, ht, hn⟩)⟩

end Reads

/-! ### Lists -/

namespace Box

/-- **A box of integers stores the integers that the pieces name.** -/
theorem CompilesPieces.stores_iff_names {b : Box} {accepts : List Char → Bool} {hint : String}
    {read : Reader} {P : Int → Prop}
    (hb : b.CompilesPieces accepts hint (Range.ofPiece (.plain read))) (hread : read.Takes P)
    {form : Form} {args : Arguments} {field raw : String}
    (ht : b.typed? form args = some (field, raw))
    (hspaces : Cleaning.checkSpaces raw.toList = .ok ())
    (hpieces : accepts (b.policy.prepare raw.toList) = true →
      ∀ p ∈ pieces ',' (b.policy.prepare raw.toList),
        p = ['-'] ∨ ∃ r : Reading, r.Spells isSigned p)
    (hok : (b.call form .empty args).result = .ok ()) (n : Int) :
    (b.call form .empty args).query.Stores (.integer n) ↔
      ∃ p ∈ pieces ',' (b.policy.prepare raw.toList), Names p n := by
  obtain ⟨haccepts, cs, hcs, hquery⟩ := (hb.call_iff ht hspaces).1 ⟨hok, rfl⟩
  have hone : List.Forall₂ (fun p c => c.Stores (.integer n) ↔ Names p n)
      (pieces ',' (b.policy.prepare raw.toList)) cs := by
    refine List.Forall₂.imp ?_ ((List.forall₂_and_left _ _).2 ⟨hpieces haccepts, hcs⟩)
    rintro p c ⟨rfl | ⟨r, hr⟩, hc⟩
    · exact absurd hc (ofPiece_dash_ne_ok hread)
    · exact SearchBox.stores_iff_names hread hr hc
  rw [hquery, Range.stores_fragmentOf, exists_mem_congr_of_forall₂ hone]

section Calls

variable {form : Form} {args : Arguments} {field raw : String}

theorem exists_spells_of_isIntegerList {text : List Char} (h : isIntegerList text = true) :
    ∀ p ∈ pieces ',' text, p = ['-'] ∨ ∃ r : Reading, r.Spells isSigned p :=
  fun p hp => exists_spells_of_accepted (.inl (List.all_eq_true.1 h p hp))

theorem exists_spells_of_isSignedList {text : List Char} (h : isSignedList text = true) :
    ∀ p ∈ pieces ',' text, p = ['-'] ∨ ∃ r : Reading, r.Spells isSigned p :=
  fun p hp => exists_spells_of_accepted (.inr (List.all_eq_true.1 h p hp))

/-- The characters of a text are commas and those of its pieces. -/
theorem forall_mem_pieces_iff {text : List Char} :
    (∀ p ∈ pieces ',' text, ∀ x ∈ p, isDigit x = true → x.isDigit = true) ↔
      ∀ x ∈ text, isDigit x = true → x.isDigit = true := by
  constructor
  · intro h x hx hdigit
    rw [← joined_pieces ',' text] at hx
    rcases mem_joined hx with rfl | ⟨p, hp, hxp⟩
    · cases hdigit
    · exact h p hp x hxp hdigit
  · exact fun h p hp x hx => h x (subset_of_mem_pieces hp hx)

/-- **The box with bounds takes the lists of bounded integers, and stores nothing else.** On the
empty query, a text that was typed and has no blanks between digits is taken if and only if, once it
is cleaned, one of the two grammars of integers accepts it, its digits are ASCII ones, no piece is a
dash alone, and all integers that its pieces name fit and lie between the bounds. What is then
stored, as a value or as a bound, in a field or in an alternative, are the integers that the pieces
name; so all of it lies between the bounds. -/
theorem call_boundedIntegers (min max : Int)
    (ht : (Kind.boundedIntegers min max).box.typed? form args = some (field, raw))
    (hspaces : Cleaning.checkSpaces raw.toList = .ok ()) :
    let box := (Kind.boundedIntegers min max).box
    let text := box.policy.prepare raw.toList
    let out := box.call form .empty args
    (out.result = .ok () ↔
      (isIntegerList text = true ∨ isSignedList text = true) ∧
      (∀ x ∈ text, isDigit x = true → x.isDigit = true) ∧
      ['-'] ∉ pieces ',' text ∧
      ∀ p ∈ pieces ',' text, ∀ n, Names p n → Fits n ∧ min ≤ n ∧ n ≤ max) ∧
    (out.result = .ok () → ∀ n,
      (out.query.Stores (.integer n) ↔ ∃ p ∈ pieces ',' text, Names p n) ∧
      (out.query.Stores (.integer n) → min ≤ n ∧ n ≤ max)) := by
  intro box text out
  have hb := compilesPieces_boundedIntegers min max
  have hread := Kind.boundedInteger_takes min max
  have hpieces (h : isIntegerList text = true ∨ isSignedList text = true) :
      ∀ p ∈ pieces ',' text, p = ['-'] ∨ ∃ r : Reading, r.Spells isSigned p :=
    h.elim exists_spells_of_isIntegerList exists_spells_of_isSignedList
  have hok : out.result = .ok () ↔
      (isIntegerList text = true ∨ isSignedList text = true) ∧
      (∀ x ∈ text, isDigit x = true → x.isDigit = true) ∧
      ['-'] ∉ pieces ',' text ∧
      ∀ p ∈ pieces ',' text, ∀ n, Names p n → Fits n ∧ min ≤ n ∧ n ≤ max := by
    rw [hb.call_ok_iff ht hspaces, exists_forall₂_iff, Bool.or_eq_true]
    refine and_congr_right fun haccepts => ?_
    calc (∀ p ∈ pieces ',' text,
            ∃ c, Range.ofPiece (.plain (Kind.boundedInteger min max)) p = .ok c)
        ↔ ∀ p ∈ pieces ',' text, p ≠ ['-'] ∧ (∀ x ∈ p, isDigit x = true → x.isDigit = true) ∧
            ∀ n, Names p n → Fits n ∧ min ≤ n ∧ n ≤ max :=
          forall₂_congr fun p hp => exists_ofPiece_iff hread (hpieces haccepts p hp)
      _ ↔ _ := by
          rw [← forall_mem_pieces_iff]
          simp only [forall_and]
          constructor
          · rintro ⟨hne, hascii, hnames⟩
            exact ⟨hascii, fun hmem => hne _ hmem rfl, hnames⟩
          · rintro ⟨hascii, hne, hnames⟩
            exact ⟨fun p hp heq => hne (heq ▸ hp), hascii, hnames⟩
  refine ⟨hok, fun htaken n => ?_⟩
  have hstores : out.query.Stores (.integer n) ↔ ∃ p ∈ pieces ',' text, Names p n :=
    hb.stores_iff_names hread ht hspaces (fun h => hpieces (Bool.or_eq_true_iff.1 h)) htaken n
  refine ⟨hstores, fun hn => ?_⟩
  obtain ⟨p, hp, hnames⟩ := hstores.1 hn
  exact ((hok.1 htaken).2.2.2 p hp n hnames).2

/-- A list of signed integers, and a list with an open interval and a sign; and an integer that is
too large. -/
theorem call_boundedIntegers_signs :
    let box := (Kind.boundedIntegers (-5) 20).box
    let form := Form.ofList [("a", "-5--2, 7"), ("b", "18..,-3"), ("c", "5-200")]
    let a : Arguments := { field := some "a" }
    let b : Arguments := { field := some "b" }
    let c : Arguments := { field := some "c" }
    box.typed? form a = some ("a", "-5--2, 7") ∧ box.typed? form b = some ("b", "18..,-3") ∧
    box.typed? form c = some ("c", "5-200") ∧
    (∀ raw ∈ ["-5--2, 7", "18..,-3", "5-200"], Cleaning.checkSpaces raw.toList = .ok ()) ∧
    (box.call form .empty a).result = .ok () ∧ (box.call form .empty b).result = .ok () ∧
    (∀ n, (box.call form .empty b).query.Stores (.integer n) → -5 ≤ n ∧ n ≤ 20) ∧
    (box.call form .empty c).result ≠ .ok () := by
  intro box form a b c
  have ha : box.typed? form a = some ("a", "-5--2, 7") := by decide
  have hb : box.typed? form b = some ("b", "18..,-3") := by decide
  have hc : box.typed? form c = some ("c", "5-200") := by decide
  have hspaces : ∀ raw ∈ ["-5--2, 7", "18..,-3", "5-200"],
      Cleaning.checkSpaces raw.toList = .ok () := by
    decide
  have hascii (cs : List Char) (h : cs.all (fun x => !isDigit x || x.isDigit) = true) :
      ∀ x ∈ cs, isDigit x = true → x.isDigit = true := by
    intro x hx hdigit
    simpa [hdigit] using List.all_eq_true.1 h x hx
  have hfive : Reading.Spells isSigned "-5--2".toList (.interval "-5".toList "-2".toList) :=
    ⟨rfl, by decide⟩
  have heighteen : Reading.Spells isSigned "18-".toList (.atLeast "18".toList) :=
    ⟨rfl, by decide⟩
  have hlarge : Reading.Spells isSigned "5-200".toList (.interval "5".toList "200".toList) :=
    ⟨rfl, by decide⟩
  have hvalue {p : List Char} {m : Int} (hm : Numeral p m) {n : Int} (hn : Names p n) : n = m := by
    obtain ⟨t, ht, hnumeral⟩ := (names_iff (.value hm.isSigned)).1 hn
    cases List.mem_singleton.1 ht
    exact hnumeral.unique hm
  have hm5 : Numeral "-5".toList (-5) := numeral_decimal (Int.negSucc 4)
  have hm2 : Numeral "-2".toList (-2) := numeral_decimal (Int.negSucc 1)
  have hm3 : Numeral "-3".toList (-3) := numeral_decimal (Int.negSucc 2)
  obtain ⟨hoka, -⟩ := call_boundedIntegers (-5) 20 ha (hspaces _ (by simp))
  obtain ⟨hokb, hstoresb⟩ := call_boundedIntegers (-5) 20 hb (hspaces _ (by simp))
  obtain ⟨hokc, -⟩ := call_boundedIntegers (-5) 20 hc (hspaces _ (by simp))
  have hresulta : (box.call form .empty a).result = .ok () := by
    have hpieces : pieces ',' (box.policy.prepare "-5--2, 7".toList) =
        ["-5--2".toList, "7".toList] := by
      decide
    refine hoka.2 ⟨.inr (by decide), hascii _ (by decide), by decide, ?_⟩
    rw [hpieces]
    simp only [List.forall_mem_cons, List.not_mem_nil, false_imp_iff, implies_true, and_true]
    refine ⟨fun n hn => ?_, fun n hn => ?_⟩
    · obtain ⟨t, ht, hnumeral⟩ := (names_iff hfive).1 hn
      rcases List.mem_cons.1 ht with rfl | ht
      · rw [hnumeral.unique hm5]
        decide
      · cases List.mem_singleton.1 ht
        rw [hnumeral.unique hm2]
        decide
    · rw [hvalue (numeral_decimal 7) hn]
      decide
  have hresultb : (box.call form .empty b).result = .ok () := by
    have hpieces : pieces ',' (box.policy.prepare "18..,-3".toList) =
        ["18-".toList, "-3".toList] := by
      decide
    refine hokb.2 ⟨.inl (by decide), hascii _ (by decide), by decide, ?_⟩
    rw [hpieces]
    simp only [List.forall_mem_cons, List.not_mem_nil, false_imp_iff, implies_true, and_true]
    refine ⟨fun n hn => ?_, fun n hn => ?_⟩
    · obtain ⟨t, ht, hnumeral⟩ := (names_iff heighteen).1 hn
      cases List.mem_singleton.1 ht
      rw [hnumeral.unique (numeral_decimal 18)]
      decide
    · rw [hvalue hm3 hn]
      decide
  refine ⟨ha, hb, hc, hspaces, hresulta, hresultb, fun n => (hstoresb hresultb n).2, fun hok => ?_⟩
  have hnames : Names "5-200".toList 200 :=
    (names_iff hlarge).2 ⟨"200".toList, by simp [Reading.tokens], numeral_decimal 200⟩
  have hmem : "5-200".toList ∈ pieces ',' (box.policy.prepare "5-200".toList) := by decide
  exact absurd ((hokc.1 hok).2.2.2 _ hmem 200 hnames).2.2 (by decide)

/-- **The box of unsigned integers stores a negative integer for a dash and digits.** On the empty
query, let a text be taken. A negative integer is stored if and only if a piece of the text is a
numeral of it, so no interval has a negative end. All integers that are stored are nonnegative if
and only if every piece that begins with a dash goes on with zeros only. -/
theorem integers_negative_iff (ht : Kind.integers.box.typed? form args = some (field, raw))
    (hspaces : Cleaning.checkSpaces raw.toList = .ok ()) :
    let ps := pieces ',' (Kind.integers.box.policy.prepare raw.toList)
    let out := Kind.integers.box.call form .empty args
    out.result = .ok () →
      (∀ n < 0, out.query.Stores (.integer n) ↔ ∃ p ∈ ps, Numeral p n) ∧
      ((∀ n, out.query.Stores (.integer n) → 0 ≤ n) ↔
        ∀ ds, '-' :: ds ∈ ps → ∀ d ∈ ds, d = '0') := by
  intro ps out hok
  obtain ⟨cs, hcs⟩ := (isCommaList_integers.call_ok_iff ht hspaces).1 hok
  have haccepted : ∀ p ∈ ps, isIntegerPiece p = true ∧
      ∃ c, Range.ofPiece (.plain Reader.integer) p = .ok c := by
    intro p hp
    obtain ⟨c, h, hc⟩ := exists_forall₂_iff.1 ⟨cs, hcs⟩ p hp
    exact ⟨h, c, hc⟩
  have hstores (n : Int) (hn : n < 0) :
      out.query.Stores (.integer n) ↔ ∃ p ∈ ps, Numeral p n := by
    rw [CompilesPieces.stores_iff_names isCommaList_integers Reader.integer_takes ht hspaces
      exists_spells_of_isIntegerList hok]
    exact exists_congr fun p => and_congr_right fun hp => names_iff_numeral (haccepted p hp).1 hn
  refine ⟨hstores, fun hnonneg ds hds => ?_, fun hzeros n hn => ?_⟩
  · -- A piece with a dash in front is compiled, so it is a numeral, and of no negative integer.
    obtain ⟨hpiece, hcompiled⟩ := haccepted _ hds
    have hspells := exists_spells_of_accepted (.inl hpiece)
    obtain ⟨hne, hascii, -⟩ := (exists_ofPiece_iff Reader.integer_takes hspells).1 hcompiled
    rw [isIntegerPiece_minus, orNothing_iff] at hpiece
    obtain ⟨hne, hdigits⟩ := isDigits_eq_true.1 (hpiece.resolve_left fun h => hne (by rw [h]))
    have hds' : ∀ d ∈ ds, d.isDigit = true := fun d hd =>
      hascii d (List.mem_cons_of_mem _ hd) (hdigits d hd)
    have hnumeral : Numeral ('-' :: ds) (-(Nat.ofDigitChars 10 ds 0 : Nat)) := .negative hne hds'
    have hzero : Nat.ofDigitChars 10 ds 0 = 0 := by
      by_contra hpos
      have hneg : -(Nat.ofDigitChars 10 ds 0 : Int) < 0 := by omega
      have hstored := hnonneg _ ((hstores _ hneg).2 ⟨_, hds, hnumeral⟩)
      omega
    exact ((ofDigitChars_eq_zero_iff hds').1 hzero).2
  · by_contra hneg
    obtain ⟨p, hp, hnumeral⟩ := (hstores n (by omega)).1 hn
    cases hnumeral with
    | plain => omega
    | negative hne hds =>
      have hzero := (ofDigitChars_eq_zero_iff hds).2 ⟨rfl, hzeros _ hp⟩
      omega

/-- Of the four pieces of the first text the last one stores a negative integer. Zeros behind a dash
do not. -/
theorem integers_negative_iff_minus :
    let form := Form.ofList [("n", "4, 2..10,25-,-5"), ("m", "-00,7")]
    let n : Arguments := { field := some "n" }
    let m : Arguments := { field := some "m" }
    let out (args : Arguments) := Kind.integers.box.call form .empty args
    Kind.integers.box.typed? form n = some ("n", "4, 2..10,25-,-5") ∧
    Kind.integers.box.typed? form m = some ("m", "-00,7") ∧
    Cleaning.checkSpaces "4, 2..10,25-,-5".toList = .ok () ∧
    Cleaning.checkSpaces "-00,7".toList = .ok () ∧
    (out n).result = .ok () ∧ (out m).result = .ok () ∧
    (out n).query.Stores (.integer (-5)) ∧ ∀ k, (out m).query.Stores (.integer k) → 0 ≤ k := by
  intro form n m out
  have hn : Kind.integers.box.typed? form n = some ("n", "4, 2..10,25-,-5") := by decide
  have hm : Kind.integers.box.typed? form m = some ("m", "-00,7") := by decide
  have hspacesn : Cleaning.checkSpaces "4, 2..10,25-,-5".toList = .ok () := by decide
  have hspacesm : Cleaning.checkSpaces "-00,7".toList = .ok () := by decide
  have hpiecesn : pieces ',' (Kind.integers.box.policy.prepare "4, 2..10,25-,-5".toList) =
      ["4".toList, "2-10".toList, "25-".toList, "-5".toList] := by
    decide
  have hpiecesm : pieces ',' (Kind.integers.box.policy.prepare "-00,7".toList) =
      [['-', '0', '0'], ['7']] := by
    decide
  have hokn : (out n).result = .ok () := rfl
  have hokm : (out m).result = .ok () := rfl
  obtain ⟨hnegative, -⟩ := integers_negative_iff hn hspacesn hokn
  obtain ⟨-, hnonneg⟩ := integers_negative_iff hm hspacesm hokm
  rw [hpiecesn] at hnegative
  rw [hpiecesm] at hnonneg
  refine ⟨hn, hm, hspacesn, hspacesm, hokn, hokm, ?_, hnonneg.2 fun ds hds => ?_⟩
  · exact (hnegative (-5) (by decide)).2
      ⟨"-5".toList, by simp, numeral_decimal (Int.negSucc 4)⟩
  · rcases List.mem_cons.1 hds with hds | hds
    · cases hds
      simp
    · cases List.mem_singleton.1 hds

/-- A dash and a digit, and a negative integer is stored. -/
theorem integers_not_nonneg :
    ¬ ∀ (form : Form) (args : Arguments),
      (Kind.integers.box.call form .empty args).result = .ok () →
        ∀ n, (Kind.integers.box.call form .empty args).query.Stores (.integer n) → 0 ≤ n := by
  intro h
  have hstored : (Kind.integers.box.call (Form.ofList [("n", "-5")]) .empty
      { field := some "n" }).query.Stores (.integer (-5)) :=
    Query.stores_single.2 .value
  exact absurd (h _ _ rfl (-5) hstored) (by decide)

end Calls

end Box

end SearchBox
