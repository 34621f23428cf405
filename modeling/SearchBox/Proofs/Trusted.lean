import SearchBox.Proofs.Cleaning
import SearchBox.Proofs.Flash
import SearchBox.Proofs.Grammar

/-!
# Messages that are not escaped

The vector boxes flash the wording of an error as it is, on the ground that it holds nothing of what
the user typed. That is so for their hints, but a token that is no number is named in the message.
As long as the token belongs to a vector, it consists of digits, signs and slashes. But any text that
begins with an empty pair of brackets passes for a vector, and then the first item, from the closing
bracket to the first comma, is named whatever it is. `message_holds_markup_iff` says that this is the
only way for markup to come into a message, and that angle brackets never do.
-/

namespace SearchBox

/-! ### Texts without markup -/

namespace Text

/-- The characters that stand out in markup. -/
def markup : List Char := ['&', '<', '>', '\x22']

/-- The text has no markup. -/
def MarkupFree (cs : List Char) : Prop := ∀ c ∈ markup, c ∉ cs

theorem all_not_contains_iff {cs : List Char} :
    (cs.all fun d => !markup.contains d) = true ↔ MarkupFree cs := by
  rw [List.all_eq_true]
  constructor
  · intro h c hc hmem
    simpa [hc] using h c hmem
  · intro h d hd
    have hnot : d ∉ markup := fun hc => h d hc hd
    simp [hnot]

instance (cs : List Char) : Decidable (MarkupFree cs) := decidable_of_iff _ all_not_contains_iff

theorem forall_mem_markup {P : Char → Prop} :
    (∀ c ∈ markup, P c) ↔ P '&' ∧ P '<' ∧ P '>' ∧ P '\x22' := by
  simp [markup]

variable {cs ds : List Char}

@[simp] theorem markupFree_append : MarkupFree (cs ++ ds) ↔ MarkupFree cs ∧ MarkupFree ds := by
  simp only [MarkupFree, List.mem_append, not_or, forall_and]

theorem MarkupFree.mono (h : MarkupFree ds) (hsub : cs ⊆ ds) : MarkupFree cs :=
  fun c hc hmem => h c hc (hsub hmem)

theorem markupFree_intercalate {sep : List Char} {ps : List (List Char)} (hsep : MarkupFree sep)
    (hps : ∀ p ∈ ps, MarkupFree p) : MarkupFree (List.intercalate sep ps) := by
  induction ps with
  | nil => exact fun c _ => List.not_mem_nil
  | cons p ps ih =>
    cases ps with
    | nil => simpa using hps
    | cons p' ps =>
      rw [List.forall_mem_cons] at hps
      rw [List.intercalate_cons_cons, markupFree_append, markupFree_append]
      exact ⟨⟨hps.1, hsep⟩, ih hps.2⟩

/-- A text whose pieces have no markup has none. -/
theorem markupFree_of_pieces (h : ∀ p ∈ pieces ',' cs, MarkupFree p) : MarkupFree cs := by
  rw [← joined_pieces ',' cs]
  exact markupFree_intercalate (by decide) h

theorem markupFree_toDigits (n : Nat) : MarkupFree (Nat.toDigits 10 n) := by
  have hmarkup : ∀ c ∈ markup, ¬ c.isDigit = true := forall_mem_markup.2 (by decide)
  intro c hc hmem
  exact hmarkup c hc (Nat.isDigit_of_mem_toDigits (by decide) (by decide) hmem)

theorem markupFree_decimalText (n : Int) : MarkupFree (Number.decimalText n).toList := by
  rw [Number.decimalText, String.toList_ofList]
  cases n with
  | ofNat n => exact markupFree_toDigits n
  | negSucc n =>
    have hsign : MarkupFree ['-'] := by decide
    exact markupFree_append.2 ⟨hsign, markupFree_toDigits (n + 1)⟩

/-- Digits of all scripts, signs and slashes are no markup. -/
theorem markupFree_of_digits (h : ∀ c ∈ cs, isDigit c = true ∨ c = '-' ∨ c = '/') :
    MarkupFree cs := by
  have hmarkup : ∀ c ∈ markup, ¬ (isDigit c = true ∨ c = '-' ∨ c = '/') :=
    forall_mem_markup.2 (by decide)
  exact fun c hc hmem => hmarkup c hc (h c hmem)

end Text

open Text

/-! ### Vectors -/

namespace Token

variable {cs : List Char}

theorem markupFree_of_isDigits (h : isDigits cs = true) : MarkupFree cs :=
  markupFree_of_digits fun c hc => .inl ((isDigits_eq_true.1 h).2 c hc)

theorem markupFree_of_isFraction (h : isFraction cs = true) : MarkupFree cs :=
  markupFree_of_digits fun _ hc => mem_of_isFraction h hc

/-- A vector of items without markup has none, unless an empty pair of brackets made it one. -/
theorem markupFree_of_isVector {item : List Char → Bool} (hitem : ∀ p, item p = true → MarkupFree p)
    (h : isVector item cs = true) (hfront : ¬ ['[', ']'] <+: cs) : MarkupFree cs := by
  rw [isVector, Bool.or_eq_true, List.isPrefixOf_iff_prefix] at h
  have hinside := h.resolve_left hfront
  split at hinside
  · cases hinside
  · rename_i inside henclosed
    have hpieces : ∀ p ∈ pieces ',' inside, MarkupFree p := fun p hp =>
      hitem p (List.all_eq_true.1 hinside p hp)
    have hopen : MarkupFree ['['] := by decide
    have hclose : MarkupFree [']'] := by decide
    rw [eq_of_enclosed?_eq_some henclosed]
    exact markupFree_append.2 ⟨hopen, markupFree_append.2 ⟨markupFree_of_pieces hpieces, hclose⟩⟩

end Token

/-! ### Items -/

namespace Reader

variable {token : List Char}

theorem toList_invalidNumber (token : List Char) :
    (Error.invalidNumber (String.ofList token)).message.toList =
      "Unable to parse '".toList ++ token ++ "' as a number".toList := by
  have htoken : (String.ofList token).toList = token := String.toList_ofList
  show ("Unable to parse '" ++ String.ofList token ++ "' as a number").toList = _
  rw [String.toList_append, String.toList_append, htoken]

/-- Markup in the message is markup in the token. -/
theorem mem_invalidNumber {c : Char} (hc : c ∈ markup) :
    c ∈ (Error.invalidNumber (String.ofList token)).message.toList ↔ c ∈ token := by
  have hfront : MarkupFree "Unable to parse '".toList := by decide
  have hback : MarkupFree "' as a number".toList := by decide
  rw [toList_invalidNumber, List.mem_append, List.mem_append]
  constructor
  · intro h
    exact (h.resolve_right (hback c hc)).resolve_left (hfront c hc)
  · exact fun h => .inl (.inr h)

theorem markupFree_invalidNumber :
    MarkupFree (Error.invalidNumber (String.ofList token)).message.toList ↔ MarkupFree token :=
  forall₂_congr fun _ hc => not_congr (mem_invalidNumber hc)

/-- A reader brings no markup into a message that was not in its token. -/
theorem Refuses.markupFree {e : Error} (h : Refuses token e) (htoken : MarkupFree token) :
    MarkupFree e.message.toList := by
  rcases h with rfl | rfl
  · exact markupFree_invalidNumber.2 htoken
  · decide

theorem readInteger_bracket (rest : List Char) :
    readInteger (']' :: rest) = .error (.invalidNumber (String.ofList (']' :: rest))) := by
  obtain ⟨rest', htrim⟩ := exists_trim_cons (c := ']') rest (by decide)
  rw [readInteger, htrim]
  rfl

theorem readFraction_bracket (rest : List Char) :
    readFraction (']' :: rest) = .error (.invalidNumber (String.ofList (']' :: rest))) := by
  have hfraction : Token.isFraction (']' :: rest) = false := by
    cases h : Token.isFraction (']' :: rest) with
    | false => rfl
    | true =>
      have hmem := Token.mem_of_isFraction h List.mem_cons_self
      exact absurd hmem (by decide)
  rw [readFraction, hfraction]
  rfl

end Reader

/-! ### Lists of items -/

section Items

variable {β : Type} {read : List Char → Except Error β} {cs : List Char}

/-- A list without markup is refused without markup. -/
theorem failsOnly_mapM_pieces (hread : ∀ token, FailsOnly (Reader.Refuses token) (read token))
    (hcs : MarkupFree cs) :
    FailsOnly (fun e => MarkupFree e.message.toList) ((pieces ',' cs).mapM read) :=
  .mapM fun p hp =>
    (hread p).mono fun _ he => he.markupFree (hcs.mono (subset_of_mem_pieces hp))

/-- A list that begins with a closing bracket is refused for its first item. -/
theorem mapM_pieces_bracket
    (hread : ∀ rest, read (']' :: rest) = .error (.invalidNumber (String.ofList (']' :: rest)))) :
    (pieces ',' (']' :: cs)).mapM read =
      .error (.invalidNumber (String.ofList ((']' :: cs).takeWhile (· != ',')))) := by
  obtain ⟨ps, hps⟩ := exists_pieces_eq_cons ',' (']' :: cs)
  have hfirst : (']' :: cs).takeWhile (· != ',') = ']' :: cs.takeWhile (· != ',') := rfl
  rw [hps, hfirst, List.mapM_cons, hread]
  rfl

end Items

/-! ### Hints -/

namespace Kind

theorem markupFree_sampleVector (n : Nat) : MarkupFree (sampleVector n).toList := by
  simp only [sampleVector, String.toList_append, markupFree_append, String.toList_intercalate]
  refine ⟨⟨by decide, markupFree_intercalate (by decide) ?_⟩, by decide⟩
  intro p hp
  obtain ⟨s, hs, rfl⟩ := List.mem_map.1 hp
  obtain ⟨i, -, rfl⟩ := List.mem_map.1 hs
  exact markupFree_decimalText (i + 2)

/-- The numbers in a hint come from the form and not from the user. -/
theorem markupFree_vectorHint (exactly most : Option Nat) :
    MarkupFree (vectorHint exactly most).toList := by
  have hframe : ∀ parts : String × String, MarkupFree parts.1.toList ∧ MarkupFree parts.2.toList →
      MarkupFree ("It needs to be a " ++ parts.1 ++ " in square brackets, such as " ++
        parts.2).toList := by
    intro parts hparts
    simp only [String.toList_append, markupFree_append]
    exact ⟨⟨⟨by decide, hparts.1⟩, by decide⟩, hparts.2⟩
  have hthrees : ∀ n, MarkupFree (",".intercalate (List.replicate n "3")).toList := by
    intro n
    rw [String.toList_intercalate]
    refine markupFree_intercalate (by decide) fun p hp => ?_
    obtain ⟨s, hs, rfl⟩ := List.mem_map.1 hp
    rw [List.eq_of_mem_replicate hs]
    decide
  apply hframe
  split
  · exact ⟨by decide, by decide⟩
  · exact ⟨by decide, by decide⟩
  · simp only [String.toList_append, markupFree_append]
    exact ⟨⟨⟨by decide, markupFree_decimalText _⟩, by decide⟩,
      ⟨⟨markupFree_sampleVector _, by decide⟩, hthrees _⟩, by decide⟩
  · simp only [String.toList_append, markupFree_append]
    exact ⟨⟨⟨by decide, markupFree_decimalText _⟩, by decide⟩, markupFree_sampleVector _, by decide⟩
  · exact ⟨by decide, by decide⟩

/-! ### Vector boxes -/

/-- The kinds of boxes that hold a vector. -/
def IsVector : Kind → Prop
  | integerVector _ _ | rationalVector => True
  | _ => False

/-- What a vector box asks of a text before it reads the items. -/
def acceptsVector (k : Kind) (cs : List Char) : Bool :=
  match k with
  | integerVector exactly most => fitsVector exactly most cs
  | _ => Token.isFractionVector cs && cs.getLast? == some ']'

/-- The text in which a vector box looks for items: the first and the last character are taken for
brackets. -/
def vectorItems (k : Kind) (cs : List Char) : List Char :=
  match k with
  | integerVector _ _ => ((erase ' ' cs).drop 1).dropLast
  | _ => (cs.drop 1).dropLast

/-- What a vector box takes for the first item. -/
def firstItem (k : Kind) (cs : List Char) : List Char := (k.vectorItems cs).takeWhile (· != ',')

/-- The text passes for a vector because an empty pair of brackets stands at its front. -/
def SlipsThrough (k : Kind) (cs : List Char) : Prop :=
  k.acceptsVector cs = true ∧ ['[', ']'] <+: cs

/-- The error names the first item of a text that slips through, and has no markup otherwise. -/
structure Explains (k : Kind) (cs : List Char) (e : Error) : Prop where
  of_slips : k.SlipsThrough cs → e = .invalidNumber (String.ofList (k.firstItem cs))
  of_not_slips : ¬ k.SlipsThrough cs → MarkupFree e.message.toList

variable {k : Kind} {cs : List Char}

theorem vectorItems_subset (k : Kind) (cs : List Char) : k.vectorItems cs ⊆ cs := by
  have hsub : ∀ ds : List Char, (ds.drop 1).dropLast ⊆ ds := fun ds =>
    List.Subset.trans (List.dropLast_subset _) (List.drop_subset 1 ds)
  unfold vectorItems
  split
  · exact List.Subset.trans (hsub (erase ' ' cs)) (List.filter_subset_self cs)
  · exact hsub cs

theorem firstItem_subset (k : Kind) (cs : List Char) : k.firstItem cs ⊆ cs :=
  List.Subset.trans (List.takeWhile_subset _) (vectorItems_subset k cs)

/-- Behind an empty pair of brackets there is nothing to read, or a closing bracket comes first. -/
theorem vectorItems_of_front (hfront : ['[', ']'] <+: cs) :
    k.vectorItems cs = [] ∨ ∃ rest, k.vectorItems cs = ']' :: rest := by
  obtain ⟨tail, rfl⟩ := hfront
  have hcut : ∀ tail : List Char, (']' :: tail).dropLast = [] ∨
      ∃ rest, (']' :: tail).dropLast = ']' :: rest := by
    intro tail
    cases tail with
    | nil => exact .inl rfl
    | cons c tail => exact .inr ⟨_, rfl⟩
  unfold vectorItems
  split
  · exact hcut (erase ' ' tail)
  · exact hcut tail

/-- The errors of the items explain why a text is refused that was taken for a vector. -/
theorem failsOnly_items {β : Type} {read : List Char → Except Error β}
    (hread : ∀ token, FailsOnly (Reader.Refuses token) (read token))
    (hbracket : ∀ rest, read (']' :: rest) = .error (.invalidNumber (String.ofList (']' :: rest))))
    (haccepts : k.acceptsVector cs = true) (hfree : ¬ ['[', ']'] <+: cs → MarkupFree cs)
    (hne : ¬ (k.vectorItems cs).isEmpty = true) :
    FailsOnly (k.Explains cs) ((pieces ',' (k.vectorItems cs)).mapM read) := by
  by_cases hfront : ['[', ']'] <+: cs
  · rcases vectorItems_of_front (k := k) hfront with hnil | ⟨rest, hrest⟩
    · rw [hnil] at hne
      exact absurd rfl hne
    · rw [hrest, mapM_pieces_bracket hbracket]
      refine .error ⟨fun _ => ?_, fun hnot => absurd ⟨haccepts, hfront⟩ hnot⟩
      rw [firstItem, hrest]
  · have hitems := (hfree hfront).mono (vectorItems_subset k cs)
    refine (failsOnly_mapM_pieces hread hitems).mono fun e he => ?_
    exact ⟨fun hslips => absurd hslips.2 hfront, fun _ => he⟩

/-- A text that does not pass for a vector is refused with a hint. -/
theorem explains_hint (hrefuses : ¬ k.acceptsVector cs = true) {hint : String}
    (hhint : MarkupFree hint.toList) : k.Explains cs (.rejected hint) :=
  ⟨fun hslips => absurd hslips.1 hrefuses, fun _ => hhint⟩

theorem failsOnly_readIntegerVector (exactly most : Option Nat) (cs : List Char) :
    FailsOnly ((integerVector exactly most).Explains cs) (readIntegerVector exactly most cs) := by
  unfold readIntegerVector
  split
  · rename_i haccepts
    have hvector : Token.isNaturalVector cs = true := by
      rw [fitsVector, Bool.and_eq_true, Bool.and_eq_true] at haccepts
      exact haccepts.1.1
    have hfree : ¬ ['[', ']'] <+: cs → MarkupFree cs :=
      Token.markupFree_of_isVector (fun _ => Token.markupFree_of_isDigits) hvector
    refine .map ?_ _
    unfold IntegerList.readWithin
    dsimp only
    split
    · exact .ok []
    · rename_i hne
      exact failsOnly_items (k := integerVector exactly most) Reader.failsOnly_readInteger
        Reader.readInteger_bracket haccepts hfree hne
  · rename_i hrefuses
    exact .error (explains_hint (k := integerVector exactly most) hrefuses
      (markupFree_vectorHint exactly most))

theorem failsOnly_readRationalVector (cs : List Char) :
    FailsOnly (rationalVector.Explains cs) (readRationalVector cs) := by
  have hnot : (!Token.isFractionVector cs || cs.getLast? != some ']') =
      !rationalVector.acceptsVector cs := (Bool.not_and _ _).symm
  unfold readRationalVector
  rw [hnot]
  cases haccepts : rationalVector.acceptsVector cs with
  | false => exact .error (explains_hint (Bool.eq_false_iff.1 haccepts) (by decide))
  | true =>
    have hvector : Token.isFractionVector cs = true := (Bool.and_eq_true_iff.1 haccepts).1
    have hfree : ¬ ['[', ']'] <+: cs → MarkupFree cs :=
      Token.markupFree_of_isVector (fun _ => Token.markupFree_of_isFraction) hvector
    rw [if_neg (by decide)]
    dsimp only
    split
    · exact .ok _
    · rename_i hne
      exact .map (failsOnly_items (k := rationalVector) Reader.failsOnly_readFraction
        Reader.readFraction_bracket haccepts hfree hne) _

theorem IsVector.isRegular (hk : k.IsVector) : k.IsRegular := by
  cases k with
  | integerVector exactly most => trivial
  | rationalVector => trivial
  | _ => exact hk.elim

/-- **What a vector box refuses, it explains without markup,** unless the text slips through. -/
theorem IsVector.failsOnly_compile (hk : k.IsVector) (context : Context) (q : Query) :
    FailsOnly (k.Explains cs) (k.compile cs context q).2 := by
  cases k with
  | integerVector exactly most =>
    exact failsOnly_stored (failsOnly_readIntegerVector exactly most cs)
  | rationalVector => exact failsOnly_stored (failsOnly_readRationalVector cs)
  | _ => exact hk.elim

end Kind

/-! ### Messages -/

namespace Box

variable {b : Box} {form : Form} {q : Query} {args : Arguments} {e : Error}

/-- A box that trusts its errors flashes the wording as it is. -/
theorem flashes_call_of_trusted (hp : b.policy.trustsErrors = true)
    (h : (b.call form q args).result = .error e) (he : e.isInput = true) :
    ∃ field raw, b.typed? form args = some (field, raw) ∧
      (b.call form q args).form.flashes = form.flashes ++
        [Form.filled (Entity.encode (b.refusedText raw.toList))
          (Entity.encode (b.nameOf args field).toList) (e.message.toList ++ ['.'])] := by
  obtain ⟨field, raw, ht, hflashes⟩ := flashes_call_of_refused h he
  refine ⟨field, raw, ht, ?_⟩
  have hmessage : String.ofList (e.message.toList ++ ['.']) = e.message ++ "." := by
    rw [String.ofList_append, String.ofList_toList]
  have hinput : (String.ofList (b.refusedText raw.toList)).toList = b.refusedText raw.toList :=
    String.toList_ofList
  have hfilled := Form.refusal_append (String.ofList (b.refusedText raw.toList))
    (b.nameOf args field) (e.message.toList ++ ['.'])
  rw [hinput, hmessage] at hfilled
  rw [hflashes, Policy.refusal, if_pos hp, hfilled]

end Box

theorem markupFree_of_checkSpaces {raw : List Char} {e : Error}
    (h : Cleaning.checkSpaces raw = .error e) : MarkupFree e.message.toList := by
  unfold Cleaning.checkSpaces at h
  split at h
  · cases h
    decide
  · cases h

/-- **How markup comes into a message that is not escaped.** A vector box that trusts its errors
flashes their wording as it is. The wording never has angle brackets. It has other markup exactly if
the text slips through the check of the box, with an empty pair of brackets at its front, and the
first item has such markup. -/
theorem message_holds_markup_iff {k : Kind} (hk : k.IsVector) {p : Policy}
    (hp : p.trustsErrors = true) {form : Form} {q : Query} {args : Arguments} {e : Error}
    (h : (Box.call ⟨p, k.compile⟩ form q args).result = .error e) :
    ∃ field raw, Box.typed? ⟨p, k.compile⟩ form args = some (field, raw) ∧
      (Box.call ⟨p, k.compile⟩ form q args).form.flashes = form.flashes ++
        [Form.filled (Entity.encode (Box.refusedText ⟨p, k.compile⟩ raw.toList))
          (Entity.encode (Box.nameOf ⟨p, k.compile⟩ args field).toList)
          (e.message.toList ++ ['.'])] ∧
      ('<' ∉ e.message.toList ∧ '>' ∉ e.message.toList) ∧
      (¬ MarkupFree e.message.toList ↔
        Cleaning.checkSpaces raw.toList = .ok () ∧ k.SlipsThrough (p.prepare raw.toList) ∧
          ¬ MarkupFree (k.firstItem (p.prepare raw.toList))) := by
  have he : e.isInput = true := Box.call_blamesUser hk.isRegular p form q args e h
  obtain ⟨field, raw, ht, hflashes⟩ := Box.flashes_call_of_trusted hp h he
  refine ⟨field, raw, ht, hflashes, ?_⟩
  have hangles (hfree : MarkupFree e.message.toList) :
      '<' ∉ e.message.toList ∧ '>' ∉ e.message.toList :=
    ⟨hfree '<' (by decide), hfree '>' (by decide)⟩
  rcases Box.refused_cases ht h with hspaces | ⟨hspaces, hcompile⟩
  · have hfree := markupFree_of_checkSpaces hspaces
    refine ⟨hangles hfree, fun hnot => absurd hfree hnot, fun hleaks => ?_⟩
    rw [hspaces] at hleaks
    cases hleaks.1
  · have hexplains : k.Explains (p.prepare raw.toList) e := hk.failsOnly_compile _ q e hcompile
    by_cases hslips : k.SlipsThrough (p.prepare raw.toList)
    · -- The message names the first item, which is a part of the prepared text.
      have hmem {c : Char} (hc : c ∈ k.firstItem (p.prepare raw.toList)) : c ≠ '<' ∧ c ≠ '>' :=
        Policy.not_angle_of_mem_prepare (k.firstItem_subset _ hc)
      rw [hexplains.of_slips hslips, Reader.markupFree_invalidNumber]
      refine ⟨⟨fun hlt => ?_, fun hgt => ?_⟩, fun hnot => ⟨hspaces, hslips, hnot⟩, fun h => h.2.2⟩
      · exact (hmem ((Reader.mem_invalidNumber (by decide)).1 hlt)).1 rfl
      · exact (hmem ((Reader.mem_invalidNumber (by decide)).1 hgt)).2 rfl
    · have hfree := hexplains.of_not_slips hslips
      refine ⟨hangles hfree, fun hnot => absurd hfree hnot, fun hleaks => ?_⟩
      exact absurd hleaks.2.1 hslips

/-- The message names a number that is too large, and its digits are no markup. -/
theorem message_holds_markup_iff_large :
    let k : Kind := .integerVector none (some 3)
    let o (text : String) := k.box.call (.ofList [("v", text)]) .empty { field := some "v" }
    let large : Error := .invalidNumber "99999999999999999999"
    (o "[1, 99999999999999999999]").result = .error large ∧
    (¬ MarkupFree large.message.toList ↔
      Cleaning.checkSpaces "[1, 99999999999999999999]".toList = .ok () ∧
        k.SlipsThrough "[1,99999999999999999999]".toList ∧ ¬ MarkupFree "1".toList) := by
  intro k o large
  have hresult : (o "[1, 99999999999999999999]").result = .error large := rfl
  obtain ⟨field, raw, ht, -, -, hiff⟩ := message_holds_markup_iff (k := k) trivial rfl hresult
  have ht' : Box.typed? k.box (.ofList [("v", "[1, 99999999999999999999]")]) { field := some "v" } =
      some ("v", "[1, 99999999999999999999]") := rfl
  cases ht.symm.trans ht'
  exact ⟨hresult, hiff⟩

/-- An ampersand and a quotation mark behind an empty pair of brackets. -/
theorem not_markupFree_message :
    let o (k : Kind) (text : String) :=
      k.box.call (.ofList [("v", text)]) .empty { field := some "v" }
    (o (.integerVector none none) "[]&x").result = .error (.invalidNumber "]&") ∧
    (o (.integerVector none none) "[]&x").form.flashes =
      ["<span style='color:black'>[]&amp;x</span> is not a valid input for " ++
        "<span style='color:black'>V</span>. Unable to parse ']&' as a number."] ∧
    ¬ MarkupFree (Error.invalidNumber "]&").message.toList ∧
    (o .rationalVector "[]\x22]").result = .error (.invalidNumber "]\x22") ∧
    ¬ MarkupFree (Error.invalidNumber "]\x22").message.toList := by
  intro o
  exact ⟨rfl, by decide, by decide, rfl, by decide⟩

end SearchBox
