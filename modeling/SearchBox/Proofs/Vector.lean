import SearchBox.Proofs.RationalList
import SearchBox.Proofs.SignedList
import SearchBox.Proofs.Trusted

/-!
# Vectors are read back

A vector box holds a text against a grammar that lets anything pass behind an empty pair of brackets,
counts commas, and then reads what stands between the first and the last character. All of this
together takes exactly the vectors of items that it can store (`Kind.readVector_eq_ok`): digits for
integers, signed digits with or without a denominator for rationals. What is shown for a list of such
values is a vector of them (`Kind.spellsVector_shown`), so the box stores it unchanged
(`Box.call_vector`).
-/

namespace SearchBox

open Text Number Token

/-! ### Texts in brackets -/

/-- The items with commas between them, in brackets. -/
def Token.bracketed (ps : List (List Char)) : List Char := '[' :: (joined ',' ps ++ [']'])

theorem Scalar.shownItems_eq_map (vs : List Scalar) : shownItems vs = vs.map shown := by
  induction vs with
  | nil => rfl
  | cons v vs ih => rw [shownItems, ih, List.map_cons]

/-- A list is shown as its items in brackets. -/
theorem Scalar.shown_list (vs : List Scalar) : (list vs).shown = bracketed (vs.map shown) := by
  rw [shown, shownItems_eq_map]
  rfl

namespace Kind

/-- Counting the commas gives the number of the items. -/
theorem vectorLength_bracketed {ps : List (List Char)} (hps : ∀ p ∈ ps, p ≠ [] ∧ ',' ∉ p) :
    vectorLength (bracketed ps) = ps.length := by
  rcases eq_or_ne ps [] with rfl | hne
  · rfl
  · have hjoined : joined ',' ps ≠ [] := joined_ne_nil (fun p hp => (hps p hp).1) hne
    have hlong : bracketed ps ≠ ['[', ']'] := by
      intro h
      rw [bracketed, List.cons.injEq, List.append_eq_singleton_iff] at h
      simp [hjoined] at h
    have hcount : (bracketed ps).count ',' = (joined ',' ps).count ',' := by
      rw [bracketed, List.count_cons_of_ne (by decide), List.count_append]
      rfl
    rw [vectorLength, if_neg hlong, hcount, ← length_pieces,
      pieces_joined hne fun p hp => (hps p hp).2]

/-! ### Items -/

/-- An item of a vector as it is typed, and the value that is stored for it. -/
inductive VectorItem : Kind → List Char → Scalar → Prop
  | natural {exactly most : Option Nat} {ds : List Char} (hne : ds ≠ [])
    (hds : ∀ c ∈ ds, c.isDigit = true) (hn : Fits (natural ds)) :
    VectorItem (integerVector exactly most) ds (.integer (natural ds))
  | whole {cs : List Char} {n : Int} (h : Numeral cs n) (hn : Fits n) :
    VectorItem rationalVector cs (.rational n)
  | fraction {cs ds : List Char} {n : Int} (h : Numeral cs n) (hn : Fits n) (hne : ds ≠ [])
    (hds : ∀ c ∈ ds, c.isDigit = true) (hd : Fits (natural ds)) (hzero : natural ds ≠ 0) :
    VectorItem rationalVector (cs ++ '/' :: ds) (.rational (n / natural ds))

/-- The values that a vector box can store: integers without sign, and rationals whose parts fit in
lowest terms. -/
inductive HoldsItem : Kind → Scalar → Prop
  | integer {exactly most : Option Nat} {n : Int} (h : 0 ≤ n) (hn : Fits n) :
    HoldsItem (integerVector exactly most) (.integer n)
  | rational {q : Rat} (hnum : Fits q.num) (hden : Fits q.den) :
    HoldsItem rationalVector (.rational q)

/-- The lengths that a vector box admits. -/
def AdmitsLength (k : Kind) (n : Nat) : Prop :=
  match k with
  | integerVector exactly most => (∀ m ∈ exactly, n = m) ∧ ∀ m ∈ most, n ≤ m
  | _ => True

/-- The text is a vector of these values. -/
def SpellsVector (k : Kind) (cs : List Char) (vs : List Scalar) : Prop :=
  k.AdmitsLength vs.length ∧ ∃ ps, cs = bracketed ps ∧ List.Forall₂ k.VectorItem ps vs

/-- The grammar of the items. -/
def acceptsItem (k : Kind) : List Char → Bool :=
  match k with
  | integerVector _ _ => isDigits
  | _ => isFraction

/-- The reader of the items. -/
def readItem (k : Kind) : Reader :=
  match k with
  | integerVector _ _ => Reader.integer
  | _ => Reader.rational

variable {k : Kind} {p cs : List Char} {v : Scalar} {vs : List Scalar}

theorem isFraction_of_acceptsItem (h : k.acceptsItem p = true) : isFraction p = true := by
  unfold acceptsItem at h
  split at h
  · exact isFraction_iff.2 (.inl (isSigned_of_isDigits h))
  · exact h

theorem ne_nil_of_acceptsItem (h : k.acceptsItem p = true) : p ≠ [] := by
  rintro rfl
  cases isFraction_of_acceptsItem h

theorem comma_not_mem_of_acceptsItem (h : k.acceptsItem p = true) : ',' ∉ p := fun hmem =>
  absurd (mem_of_isFraction (isFraction_of_acceptsItem h) hmem) (by decide)

/-- Cleaning keeps the characters of items. -/
theorem isStripped_of_acceptsItem (h : k.acceptsItem p = true) :
    ∀ c ∈ p, Cleaning.isStripped false c = false := by
  intro c hc
  rcases mem_of_isFraction (isFraction_of_acceptsItem h) hc with hdigit | rfl | rfl
  · exact Cleaning.isStripped_of_isDigit hdigit
  · decide
  · decide

/-- **Grammar and reader together take the items and no other text.** -/
theorem vectorItem_iff (hk : k.IsVector) :
    k.VectorItem p v ↔ k.acceptsItem p = true ∧ k.readItem p = .ok v := by
  cases k with
  | integerVector exactly most =>
    constructor
    · rintro ⟨hne, hds, hn⟩
      exact ⟨isDigits_of_isAsciiDigit hne hds, Reader.integer_of_numeral (.plain hne hds) hn⟩
    · rintro ⟨hdigits, hread⟩
      obtain ⟨n, hn, rfl⟩ := map_eq_ok.1 hread
      obtain ⟨hnumeral, hfits⟩ :=
        (Reader.readInteger_of_isSigned (isSigned_of_isDigits hdigits)).1 hn
      cases hnumeral with
      | plain hne hds => exact .natural hne hds hfits
      | negative => exact absurd List.mem_cons_self (not_mem_of_isDigits rfl hdigits)
  | rationalVector =>
    constructor
    · intro h
      cases h with
      | whole h hn =>
        have hread := (Reader.readFraction_of_isSigned h.isSigned).2
          ⟨_, (readInteger?_of_isSigned h.isSigned).2 ⟨h, hn⟩, rfl⟩
        exact ⟨isFraction_iff.2 (.inl h.isSigned), map_eq_ok.2 ⟨_, hread, rfl⟩⟩
      | @fraction a b n h hn hne hds hd hzero =>
        have hdigits := isDigits_of_isAsciiDigit hne hds
        have hread := (Reader.readFraction_slash h.isSigned hdigits).2
          ⟨n, natural b, (readInteger?_of_isSigned h.isSigned).2 ⟨h, hn⟩,
            (readInteger?_of_isDigits hdigits).2 ⟨hds, hd, rfl⟩, Int.natCast_ne_zero.2 hzero, rfl⟩
        rw [intCast_div_natCast]
        exact ⟨isFraction_iff.2 (.inr ⟨a, b, rfl, h.isSigned, hdigits⟩),
          map_eq_ok.2 ⟨_, hread, rfl⟩⟩
    · rintro ⟨haccepts, hread⟩
      obtain ⟨q, hq, rfl⟩ := map_eq_ok.1 hread
      rcases isFraction_iff.1 haccepts with hsigned | ⟨a, b, rfl, ha, hb⟩
      · obtain ⟨n, hn, rfl⟩ := (Reader.readFraction_of_isSigned hsigned).1 hq
        obtain ⟨hnumeral, hfits⟩ := (readInteger?_of_isSigned hsigned).1 hn
        exact .whole hnumeral hfits
      · obtain ⟨n, d, hn, hd, hzero, rfl⟩ := (Reader.readFraction_slash ha hb).1 hq
        obtain ⟨hnumeral, hfits⟩ := (readInteger?_of_isSigned ha).1 hn
        obtain ⟨hds, hfits', rfl⟩ := (readInteger?_of_isDigits hb).1 hd
        rw [← intCast_div_natCast]
        exact .fraction hnumeral hfits (isDigits_eq_true.1 hb).1 hds hfits'
          (Int.natCast_ne_zero.1 hzero)
  | _ => exact hk.elim

/-- What is stored for an item is one of the values of the box. -/
theorem VectorItem.holdsItem (h : k.VectorItem p v) : k.HoldsItem v := by
  cases h with
  | natural _ _ hn => exact .integer (Int.natCast_nonneg _) hn
  | @whole _ n _ hn => exact .rational (by simpa using hn) (by simpa using by decide)
  | fraction _ hn _ _ hd hzero =>
    obtain ⟨hnum, hden⟩ := fits_num_den hn hd hzero
    exact .rational hnum hden

/-- **What is shown for a value is an item that stands for it.** -/
theorem vectorItem_shown (h : k.HoldsItem v) : k.VectorItem v.shown v := by
  cases h with
  | @integer exactly most n h hn =>
    obtain ⟨n, rfl⟩ := Int.eq_ofNat_of_zero_le h
    have hnatural : natural (Nat.toDigits 10 n) = n := Nat.ofDigitChars_ten_toDigits
    have hitem : VectorItem (integerVector exactly most) (Nat.toDigits 10 n)
        (.integer (natural (Nat.toDigits 10 n))) :=
      .natural Nat.toDigits_ne_nil (isAsciiDigit_of_mem_toDigits n) (hnatural.symm ▸ hn)
    rwa [hnatural] at hitem
  | @rational q hnum hden =>
    have hnumeral := numeral_decimal q.num
    by_cases hone : q.den = 1
    · have hitem := VectorItem.whole hnumeral hnum
      rw [(Rat.den_eq_one_iff q).1 hone] at hitem
      rwa [Scalar.shown, Scalar.rationalText, if_pos hone]
    · have hnatural : natural (Nat.toDigits 10 q.den) = q.den := Nat.ofDigitChars_ten_toDigits
      have hitem := VectorItem.fraction hnumeral hnum Nat.toDigits_ne_nil
        (isAsciiDigit_of_mem_toDigits q.den) (hnatural.symm ▸ hden) (hnatural.symm ▸ q.den_nz)
      rw [hnatural, Rat.num_div_den] at hitem
      rwa [Scalar.shown, Scalar.rationalText, if_neg hone]

/-! ### Reading a vector -/

/-- The items of a vector, which is empty if nothing stands between the brackets. -/
def readItems (k : Kind) (inside : List Char) : Except Error (List Scalar) :=
  if inside.isEmpty then .ok [] else (pieces ',' inside).mapM k.readItem

/-- What a vector box makes of a text. -/
def readVector (k : Kind) : List Char → Except Error Scalar :=
  match k with
  | integerVector exactly most => readIntegerVector exactly most
  | _ => readRationalVector

theorem IsVector.policy_eq (hk : k.IsVector) : k.policy = vectorPolicy := by
  cases k with
  | integerVector exactly most => rfl
  | rationalVector => rfl
  | _ => exact hk.elim

theorem compile_eq_stored (hk : k.IsVector) : k.compile = stored k.readVector := by
  cases k with
  | integerVector exactly most => rfl
  | rationalVector => rfl
  | _ => exact hk.elim

theorem map_list_readItems {β : Type} {read : List Char → Except Error β} {store : β → Scalar}
    (h : ∀ p, k.readItem p = (read p).map store) (inside : List Char) :
    (k.readItems inside).map Scalar.list =
      if inside.isEmpty then .ok (Scalar.list [])
      else ((pieces ',' inside).mapM read).map fun xs => Scalar.list (xs.map store) := by
  unfold readItems
  split
  · rfl
  · rw [mapM_eq_map_mapM fun p _ => h p]
    cases (pieces ',' inside).mapM read <;> rfl

/-- Both boxes check a text in their own way, and then read it item by item. -/
theorem readVector_eq (hk : k.IsVector) : ∃ hint, ∀ cs, k.readVector cs =
    if k.acceptsVector cs then (k.readItems (k.vectorItems cs)).map .list
    else .error (.rejected hint) := by
  cases k with
  | integerVector exactly most =>
    refine ⟨vectorHint exactly most, fun cs => ?_⟩
    rw [map_list_readItems fun _ => rfl]
    unfold readVector acceptsVector vectorItems
    dsimp only
    unfold readIntegerVector IntegerList.readWithin
    dsimp only
    split
    · split <;> rfl
    · rfl
  | rationalVector =>
    refine ⟨rationalVectorHint, fun cs => ?_⟩
    rw [map_list_readItems fun _ => rfl]
    unfold readVector acceptsVector vectorItems
    dsimp only
    unfold readRationalVector
    cases Token.isFractionVector cs <;> cases hlast : cs.getLast? == some ']' <;> simp [bne, hlast]
  | _ => exact hk.elim

theorem vectorItems_of_clean (h : ∀ c ∈ cs, Cleaning.isStripped false c = false) :
    k.vectorItems cs = (cs.drop 1).dropLast := by
  unfold vectorItems
  split
  · rw [Cleaning.erase_space_of_not_mem h]
  · rfl

section Items

variable {ps : List (List Char)} (hps : ∀ p ∈ ps, k.acceptsItem p = true)

include hps

theorem pieces_joined_items (hne : ps ≠ []) : pieces ',' (joined ',' ps) = ps :=
  pieces_joined hne fun p hp => comma_not_mem_of_acceptsItem (hps p hp)

/-- Cleaning changes nothing in a vector. -/
theorem isStripped_bracketed : ∀ c ∈ bracketed ps, Cleaning.isStripped false c = false := by
  intro c hc
  have hcases : c = '[' ∨ c ∈ joined ',' ps ∨ c = ']' := by simpa [bracketed] using hc
  rcases hcases with rfl | hc | rfl
  · decide
  · rcases mem_joined hc with rfl | ⟨p, hp, hc⟩
    · decide
    · exact isStripped_of_acceptsItem (hps p hp) c hc
  · decide

theorem vectorItems_bracketed : k.vectorItems (bracketed ps) = joined ',' ps := by
  rw [vectorItems_of_clean (isStripped_bracketed hps)]
  exact List.dropLast_concat

theorem readItems_joined : k.readItems (joined ',' ps) = ps.mapM k.readItem := by
  rcases eq_or_ne ps [] with rfl | hne
  · rfl
  · have hjoined : joined ',' ps ≠ [] :=
      joined_ne_nil (fun p hp => ne_nil_of_acceptsItem (hps p hp)) hne
    rw [readItems, if_neg (by simpa using hjoined), pieces_joined_items hps hne]

theorem isVector_bracketed : isVector k.acceptsItem (bracketed ps) = true := by
  rcases eq_or_ne ps [] with rfl | hne
  · rfl
  · have henclosed : enclosed? (bracketed ps) = some (joined ',' ps) := enclosed?_group _
    rw [isVector, henclosed, Bool.or_eq_true]
    right
    simpa [everyPiece, pieces_joined_items hps hne] using hps

/-- A vector box takes every vector of its items if it admits the length. -/
theorem acceptsVector_bracketed (hk : k.IsVector) :
    k.acceptsVector (bracketed ps) = true ↔ k.AdmitsLength ps.length := by
  have hvector := isVector_bracketed hps
  have hlength := vectorLength_bracketed fun p hp =>
    ⟨ne_nil_of_acceptsItem (hps p hp), comma_not_mem_of_acceptsItem (hps p hp)⟩
  cases k with
  | integerVector exactly most =>
    have hvector' : isNaturalVector (bracketed ps) = true := hvector
    rw [acceptsVector, fitsVector, hlength, hvector']
    simp [AdmitsLength, Option.all_eq_true]
  | rationalVector =>
    have hvector' : isFractionVector (bracketed ps) = true := hvector
    have hlast : (bracketed ps).getLast? = some ']' := by
      rw [bracketed, ← List.cons_append, List.getLast?_concat]
    simp [acceptsVector, hvector', hlast, AdmitsLength]
  | _ => exact hk.elim

theorem readVector_bracketed (hk : k.IsVector) :
    k.readVector (bracketed ps) = .ok v ↔
      k.AdmitsLength ps.length ∧ ∃ vs, ps.mapM k.readItem = .ok vs ∧ .list vs = v := by
  obtain ⟨hint, heq⟩ := readVector_eq hk
  rw [heq, vectorItems_bracketed hps, readItems_joined hps, ← acceptsVector_bracketed hps hk]
  cases k.acceptsVector (bracketed ps) with
  | false => simp
  | true => simp [map_eq_ok]

end Items

theorem isVector_of_acceptsVector (hk : k.IsVector) (h : k.acceptsVector cs = true) :
    isVector k.acceptsItem cs = true := by
  cases k with
  | integerVector exactly most =>
    rw [acceptsVector, fitsVector, Bool.and_eq_true, Bool.and_eq_true] at h
    exact h.1.1
  | rationalVector => exact (Bool.and_eq_true_iff.1 h).1
  | _ => exact hk.elim

/-- No reader takes a closing bracket. -/
theorem readItems_bracket (hk : k.IsVector) (rest : List Char) (vs : List Scalar) :
    k.readItems (']' :: rest) ≠ .ok vs := by
  have hread : ∀ rest, k.readItem (']' :: rest) =
      .error (.invalidNumber (String.ofList (']' :: rest))) := by
    intro rest
    cases k with
    | integerVector exactly most =>
      exact map_eq_error.2 (Reader.readInteger_bracket rest)
    | rationalVector => exact map_eq_error.2 (Reader.readFraction_bracket rest)
    | _ => exact hk.elim
  intro h
  rw [readItems, if_neg (by simp), mapM_pieces_bracket hread] at h
  cases h

/-- **Nothing is taken but vectors.** Behind an empty pair of brackets the closing one belongs to the
first item, unless the text ends there. -/
theorem exists_bracketed (hk : k.IsVector) (hclean : ∀ c ∈ cs, Cleaning.isStripped false c = false)
    (h : k.readVector cs = .ok v) :
    ∃ ps, cs = bracketed ps ∧ ∀ p ∈ ps, k.acceptsItem p = true := by
  obtain ⟨hint, heq⟩ := readVector_eq hk
  rw [heq] at h
  split at h
  · rename_i haccepts
    obtain ⟨vs, hvs, -⟩ := map_eq_ok.1 h
    have hvector := isVector_of_acceptsVector hk haccepts
    rw [isVector, Bool.or_eq_true, List.isPrefixOf_iff_prefix] at hvector
    rcases hvector with ⟨tail, rfl⟩ | hinside
    · cases tail with
      | nil => exact ⟨[], rfl, by simp⟩
      | cons c tail =>
        rw [vectorItems_of_clean hclean] at hvs
        exact absurd hvs (readItems_bracket hk _ vs)
    · split at hinside
      · cases hinside
      · rename_i inside henclosed
        refine ⟨pieces ',' inside, ?_, List.all_eq_true.1 hinside⟩
        rw [bracketed, joined_pieces, eq_of_enclosed?_eq_some henclosed]
  · cases h

/-- **A vector box reads the vectors of its items that have an admitted length, and refuses all other
texts.** -/
theorem readVector_eq_ok (hk : k.IsVector) (hclean : ∀ c ∈ cs, Cleaning.isStripped false c = false) :
    k.readVector cs = .ok v ↔ ∃ vs, k.SpellsVector cs vs ∧ .list vs = v := by
  constructor
  · intro h
    obtain ⟨ps, rfl, hps⟩ := exists_bracketed hk hclean h
    obtain ⟨hlength, vs, hvs, rfl⟩ := (readVector_bracketed hps hk).1 h
    refine ⟨vs, ⟨length_of_mapM hvs ▸ hlength, ps, rfl, ?_⟩, rfl⟩
    have hitems := (List.forall₂_and_left _ _).2 ⟨hps, forall₂_of_mapM hvs⟩
    exact hitems.imp fun p v hpv => (vectorItem_iff hk).2 hpv
  · rintro ⟨vs, ⟨hlength, ps, rfl, hitems⟩, rfl⟩
    obtain ⟨hps, hread⟩ :=
      (List.forall₂_and_left _ _).1 (hitems.imp fun p v hpv => (vectorItem_iff hk).1 hpv)
    exact (readVector_bracketed hps hk).2
      ⟨hitems.length_eq ▸ hlength, vs, mapM_of_forall₂ hread, rfl⟩

/-- What is shown for values of the box is a vector of them. -/
theorem spellsVector_shown (hlength : k.AdmitsLength vs.length) (hvs : ∀ v ∈ vs, k.HoldsItem v) :
    k.SpellsVector (Scalar.list vs).shown vs := by
  refine ⟨hlength, vs.map Scalar.shown, Scalar.shown_list vs, ?_⟩
  rw [List.forall₂_map_left_iff, List.forall₂_same]
  exact fun v hv => vectorItem_shown (hvs v hv)

/-- A vector spells values of the box. -/
theorem SpellsVector.holdsItem (h : k.SpellsVector cs vs) : ∀ v ∈ vs, k.HoldsItem v := by
  obtain ⟨-, ps, -, hitems⟩ := h
  intro v hv
  obtain ⟨p, -, hitem⟩ := exists_of_mem_forall₂ hitems hv
  exact hitem.holdsItem

theorem SpellsVector.isStripped (hk : k.IsVector) (h : k.SpellsVector cs vs) :
    ∀ c ∈ cs, Cleaning.isStripped false c = false := by
  obtain ⟨-, ps, rfl, hitems⟩ := h
  refine isStripped_bracketed (k := k) ?_
  exact ((List.forall₂_and_left _ _).1 (hitems.imp fun p v hpv => (vectorItem_iff hk).1 hpv)).1

end Kind

/-! ### Calls -/

namespace Box

variable {k : Kind} {form : Form} {q : Query} {args : Arguments} {field raw : String}

/-- **A vector box is exact.** Let a text be typed. It is taken if and only if it has no blanks between
digits and, once it is cleaned, is a vector of items of an admitted length: digits of an integer that
fits, or a numeral and perhaps a denominator that is not zero, of integers that fit. Then the list of
their values is stored, all of which the box can hold, a rational in lowest terms. And every list of
such values that has an admitted length is stored when it is typed as it is shown. -/
theorem call_vector (hk : k.IsVector) (ht : k.box.typed? form args = some (field, raw)) :
    let key := (k.box.contextOf args field).key
    let out := k.box.call form q args
    (∀ d, out.result = .ok () ∧ out.query = d ↔
      Cleaning.checkSpaces raw.toList = .ok () ∧
        ∃ vs, k.SpellsVector (k.policy.prepare raw.toList) vs ∧
          q.insert key (.value (.list vs)) = d) ∧
    (∀ vs, k.SpellsVector (k.policy.prepare raw.toList) vs → ∀ v ∈ vs, k.HoldsItem v) ∧
    ∀ vs, (∀ v ∈ vs, k.HoldsItem v) → k.AdmitsLength vs.length →
      raw.toList = (Scalar.list vs).shown →
        out.result = .ok () ∧ out.query = q.insert key (.value (.list vs)) := by
  intro key out
  have hcall (d : Query) : out.result = .ok () ∧ out.query = d ↔
      Cleaning.checkSpaces raw.toList = .ok () ∧
        ∃ vs, k.SpellsVector (k.policy.prepare raw.toList) vs ∧
          q.insert key (.value (.list vs)) = d := by
    have hclean : ∀ c ∈ k.policy.prepare raw.toList, Cleaning.isStripped false c = false :=
      fun _ hc => k.cleans_policy.isStripped_of_mem_prepare hc
    rw [call_stored_iff (Kind.compile_eq_stored hk) ht]
    refine and_congr_right fun _ => ?_
    constructor
    · rintro ⟨v, hv, rfl⟩
      obtain ⟨vs, hvs, rfl⟩ := (Kind.readVector_eq_ok hk hclean).1 hv
      exact ⟨vs, hvs, rfl⟩
    · rintro ⟨vs, hvs, rfl⟩
      exact ⟨_, (Kind.readVector_eq_ok hk hclean).2 ⟨vs, hvs, rfl⟩, rfl⟩
  refine ⟨hcall, fun vs hvs => hvs.holdsItem, fun vs hvs hlength hraw => ?_⟩
  have hspells := Kind.spellsVector_shown hlength hvs
  have hclean := hspells.isStripped hk
  rw [← hraw] at hspells hclean
  have hspaces : Cleaning.checkSpaces raw.toList = .ok () :=
    Cleaning.checkSpaces_of_not_blank fun c hc => (Cleaning.isStripped_eq_false (hclean c hc)).2.2
  have hdots : k.policy.dashesDots = false := by
    rw [hk.policy_eq]
    rfl
  have hprepare : k.policy.prepare raw.toList = raw.toList := by
    rw [k.cleans_policy.prepare_eq, hdots, if_neg Bool.false_ne_true,
      Cleaning.stripped_of_not_mem hclean]
  rw [← hprepare] at hspells
  exact (hcall _).2 ⟨hspaces, vs, hspells, rfl⟩

/-- A pair of integers that was typed with a space, and two rationals as they are shown. -/
theorem call_vector_pair :
    let pair : Kind := .integerVector (some 2) (some 9)
    let fractions : List Scalar := [.rational (mkRat (-1) 2), .rational 3]
    let form := Form.ofList [("v", "[2, 33]"), ("w", "[-1/2,3]")]
    let v : Arguments := { field := some "v" }
    let w : Arguments := { field := some "w" }
    (pair.IsVector ∧ pair.box.typed? form v = some ("v", "[2, 33]")) ∧
    (Kind.rationalVector.IsVector ∧
      Kind.rationalVector.box.typed? form w = some ("w", "[-1/2,3]")) ∧
    ((pair.box.call form .empty v).result = .ok () ∧
      (pair.box.call form .empty v).query =
        .single "v" (.value (.list [.integer 2, .integer 33]))) ∧
    ((Kind.rationalVector.box.call form .empty w).result = .ok () ∧
      (Kind.rationalVector.box.call form .empty w).query =
        .single "w" (.value (.list fractions))) := by
  intro pair fractions form v w
  have hv : pair.box.typed? form v = some ("v", "[2, 33]") := by decide
  have hw : Kind.rationalVector.box.typed? form w = some ("w", "[-1/2,3]") := by decide
  have hpair : pair.SpellsVector "[2,33]".toList [.integer 2, .integer 33] := by
    refine ⟨by simp [Kind.AdmitsLength, pair], ["2".toList, "33".toList], by decide, ?_⟩
    exact .cons (.natural (by decide) (by simp) (by decide))
      (.cons (.natural (by decide) (by simp) (by decide)) .nil)
  have hholds : ∀ x ∈ fractions, Kind.rationalVector.HoldsItem x := by
    refine List.forall_mem_cons.2 ⟨.rational ?_ ?_, List.forall_mem_singleton.2 (.rational ?_ ?_)⟩
    all_goals decide +kernel
  have hshown : "[-1/2,3]".toList = (Scalar.list fractions).shown := by decide +kernel
  obtain ⟨hcall, -, -⟩ := call_vector (k := pair) (q := .empty) trivial hv
  obtain ⟨-, -, hstored⟩ := call_vector (k := .rationalVector) (q := .empty) trivial hw
  refine ⟨⟨trivial, hv⟩, ⟨trivial, hw⟩, ?_, hstored fractions hholds trivial hshown⟩
  exact (hcall _).2 ⟨by decide, _, hpair, rfl⟩

end Box

end SearchBox
