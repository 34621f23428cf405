import SearchBox.Proofs.Numeral
import SearchBox.Proofs.Parts
import SearchBox.Proofs.Separator

/-!
# Texts that begin as typed

The box for the beginning of a stored text puts its leading elements in front of the typed ones. Once
a text is clean, a part of it is compiled in three steps (`compilePart_eq`, `start`): no element may be
empty, none may have a dash behind its first character, and the typed ones are read. The first two
steps look at the leading elements as well. So a part is accepted exactly if the typed elements are in
order (`Starts`) and the box `Admits` the part, which depends on the leading elements alone
(`compilePart_eq_ok`). From this follow

* what the leading elements do to a text and to its acceptance (`Box.call_leadingElements`);
* what becomes of an interval among the typed elements (`Box.call_interval`): the second step looks for
  a dash (`start_eq_interval_iff`), and never for two dots.
-/

namespace SearchBox

open Text

namespace Sequence

variable {part : List Char} {c : Char}

/-! ### Clean parts -/

/-- The elements that a part names: the items of a group, or the bare token. -/
def typedElements (part : List Char) : List (List Char) :=
  if Token.opensBracket part then pieces ',' (inside part) else [part]

theorem typedElements_group (items : List Char) :
    typedElements ('[' :: (items ++ [']'])) = pieces ',' items := by
  have hopen : Token.opensBracket ('[' :: (items ++ [']'])) = true := rfl
  rw [typedElements, if_pos hopen, inside, Token.enclosed?_group, Option.getD_some]

theorem mem_of_mem_inside (hc : c ∈ inside part) : c ∈ part := by
  unfold inside at hc
  cases henclosed : Token.enclosed? part with
  | none => simpa [henclosed] using hc
  | some cs =>
    rw [henclosed, Option.getD_some] at hc
    rw [Token.eq_of_enclosed?_eq_some henclosed]
    simp [hc]

theorem mem_of_mem_parts {cs : List Char} (hpart : part ∈ parts cs) (hc : c ∈ part) : c ∈ cs := by
  obtain ⟨piece, hpiece, hpart⟩ := List.mem_flatMap.1 hpart
  rw [← Token.flatten_splitGroups cs]
  refine List.mem_flatten.2 ⟨piece, hpiece, ?_⟩
  split at hpart
  · rwa [List.mem_singleton.1 hpart] at hc
  · obtain ⟨p, hp, rfl⟩ := List.mem_map.1 (List.mem_filter.1 hpart).1
    exact subset_of_mem_pieces hp (mem_of_mem_trim hc)

namespace Beginning

variable {b : Beginning} {key : String} {typed : List (List Char)} {t : List Char}

/-! ### The steps for one part -/

/-- The elements that must have some text: in a group the leading ones as well. -/
def checked (b : Beginning) (part : List Char) : List (List Char) :=
  if Token.opensBracket part then b.leadingTexts ++ typedElements part else typedElements part

/-- A clean part is refused if an element has no text. Otherwise its elements begin the stored text. -/
theorem compilePart_eq (hfirst : b.firstField = none) (hblank : ∀ c ∈ part, isBlank c = false) :
    b.compilePart key part =
      if (b.checked part).any List.isEmpty then .error (.rejected emptyMessage)
      else (b.start (typedElements part)).map (.single key) := by
  unfold compilePart checked typedElements
  rw [trim_of_not_blank hblank]
  by_cases hopen : Token.opensBracket part = true
  · have hne : part.isEmpty = false := by
      cases part with
      | nil => cases hopen
      | cons c part => rfl
    have htrim : (pieces ',' (inside part)).map trim = pieces ',' (inside part) := by
      have hpiece : ∀ p ∈ pieces ',' (inside part), trim p = p := fun p hp =>
        trim_of_not_blank fun c hc => hblank c (mem_of_mem_inside (subset_of_mem_pieces hp hc))
      rw [List.map_congr_left hpiece, List.map_id']
    simp only [hopen, hne, htrim, compileGroup, hfirst, if_true, Bool.false_eq_true, if_false]
  · have hlone : [part].any List.isEmpty = part.isEmpty := Bool.or_false _
    simp only [hopen, hlone, hfirst, Bool.false_eq_true, if_false]

/-- The leading elements, with the separator behind each. -/
def lead (b : Beginning) : List Char := joined b.separator.toList b.leadingTexts

/-- The condition that the stored text begins in the given way. -/
def beginsWith (key : String) (text : List Char) : Query :=
  .single key (.operators { start := some (String.ofList text) })

theorem beginsWith_injective (key : String) : Function.Injective (beginsWith key) := by
  intro t u h
  simpa [beginsWith, Query.single, OrderedMap.singleton, String.ofList_inj] using h

/-- The part names elements which have some text and no dash behind its first character, and `text`
are these elements as they are stored, with the separator behind each. -/
structure Starts (e : Element) (separator part text : List Char) : Prop where
  ne_nil : ∀ t ∈ typedElements part, t ≠ []
  noDash : ∀ t ∈ typedElements part, hasInnerDash t = false
  stored : ∃ vs, (typedElements part).mapM e.reader = .ok vs ∧
    joined separator (vs.map Scalar.shown) = text

/-- The leading elements have no dash behind their first characters, and if the part is a group, some
text. -/
def Admits (b : Beginning) (part : List Char) : Prop :=
  (∀ s ∈ b.leading, hasInnerDash s.toList = false) ∧
    (Token.opensBracket part = true → "" ∉ b.leading)

theorem joined_leadingTexts (es : List (List Char)) :
    joined b.separator.toList (b.leadingTexts ++ es) =
      b.lead ++ joined b.separator.toList es :=
  List.flatMap_append

theorem start_of_dash (h : ∃ e ∈ b.leadingTexts ++ typed, hasInnerDash e = true) :
    b.start typed = .error (.rejected intervalMessage) := by
  rw [start, if_pos (List.any_eq_true.2 h)]

theorem start_of_noDash (h : ¬ ∃ e ∈ b.leadingTexts ++ typed, hasInnerDash e = true) :
    b.start typed = (typed.mapM b.element.reader).map fun vs =>
      .operators (.starting (String.ofList
        (b.lead ++ joined b.separator.toList (vs.map Scalar.shown)))) := by
  simp only [start, List.any_eq_true, if_neg h, joined_leadingTexts]

theorem start_eq_ok {o : Constraint} :
    b.start typed = .ok o ↔
      (¬ ∃ e ∈ b.leadingTexts ++ typed, hasInnerDash e = true) ∧
        ∃ vs, typed.mapM b.element.reader = .ok vs ∧
          .operators (.starting (String.ofList
            (b.lead ++ joined b.separator.toList (vs.map Scalar.shown)))) = o := by
  by_cases h : ∃ e ∈ b.leadingTexts ++ typed, hasInnerDash e = true
  · rw [start_of_dash h]
    constructor
    · intro hok
      cases hok
    · exact fun hok => absurd h hok.1
  · rw [start_of_noDash h, map_eq_ok, and_iff_right h]

/-- No element lacks text: of the leading ones this is asked in front of a group only. -/
theorem any_isEmpty_checked_eq_false :
    (b.checked part).any List.isEmpty = false ↔
      (Token.opensBracket part = true → "" ∉ b.leading) ∧ ∀ t ∈ typedElements part, t ≠ [] := by
  have htyped : (typedElements part).any List.isEmpty = false ↔
      ∀ t ∈ typedElements part, t ≠ [] := by
    simp only [List.any_eq_false, List.isEmpty_iff, ne_eq]
  have hleading : b.leadingTexts.any List.isEmpty = false ↔ "" ∉ b.leading := by
    simp only [leadingTexts, List.any_map, List.any_eq_false, Function.comp_apply,
      List.isEmpty_iff, String.toList_eq_nil_iff]
    exact ⟨fun h hmem => h "" hmem rfl, fun h s hs heq => h (heq ▸ hs)⟩
  unfold checked
  split
  · rename_i hopen
    rw [List.any_append, Bool.or_eq_false_iff, htyped, hleading, forall_prop_of_true hopen]
  · rename_i hopen
    rw [htyped]
    exact (and_iff_right fun hopen' => absurd hopen' hopen).symm

/-- **A clean part is accepted if the leading elements admit it and the typed ones are in order.** -/
theorem compilePart_eq_ok (hfirst : b.firstField = none) (hblank : ∀ c ∈ part, isBlank c = false)
    {s : Query} :
    b.compilePart key part = .ok s ↔
      b.Admits part ∧ ∃ text, Starts b.element b.separator.toList part text ∧
        beginsWith key (b.lead ++ text) = s := by
  have hdash : (¬ ∃ e ∈ b.leadingTexts ++ typedElements part, hasInnerDash e = true) ↔
      (∀ s ∈ b.leading, hasInnerDash s.toList = false) ∧
        ∀ t ∈ typedElements part, hasInnerDash t = false := by
    simp only [not_exists, not_and, Bool.not_eq_true]
    rw [List.forall_mem_append, leadingTexts, List.forall_mem_map]
  rw [compilePart_eq hfirst hblank]
  constructor
  · intro h
    split at h
    · cases h
    · rename_i hchecked
      obtain ⟨hgroup, hne⟩ := any_isEmpty_checked_eq_false.1 (Bool.eq_false_iff.2 hchecked)
      obtain ⟨o, ho, rfl⟩ := map_eq_ok.1 h
      obtain ⟨hnone, vs, hvs, rfl⟩ := start_eq_ok.1 ho
      obtain ⟨hleading, htyped⟩ := hdash.1 hnone
      exact ⟨⟨hleading, hgroup⟩, _, ⟨hne, htyped, vs, hvs, rfl⟩, rfl⟩
  · rintro ⟨⟨hleading, hgroup⟩, text, ⟨hne, htyped, vs, hvs, rfl⟩, rfl⟩
    have hchecked := any_isEmpty_checked_eq_false.2 ⟨hgroup, hne⟩
    rw [if_neg (Bool.eq_false_iff.1 hchecked), map_eq_ok]
    exact ⟨_, start_eq_ok.2 ⟨hdash.2 ⟨hleading, htyped⟩, vs, hvs, rfl⟩, rfl⟩

/-- If no element is empty, the elements are the beginning of the stored text. -/
theorem compilePart_of_ne_nil (hfirst : b.firstField = none)
    (hblank : ∀ c ∈ part, isBlank c = false)
    (hne : ∀ e ∈ b.leadingTexts ++ typedElements part, e ≠ []) :
    b.compilePart key part = (b.start (typedElements part)).map (.single key) := by
  have hleading : "" ∉ b.leading := fun hmem =>
    hne [] (List.mem_append_left _ (List.mem_map.2 ⟨"", hmem, rfl⟩)) rfl
  have hchecked := any_isEmpty_checked_eq_false.2
    ⟨fun _ => hleading, fun t ht => hne t (List.mem_append_right b.leadingTexts ht)⟩
  rw [compilePart_eq hfirst hblank, if_neg (Bool.eq_false_iff.1 hchecked)]

theorem mapM_compilePart_eq_ok (hfirst : b.firstField = none) {ps : List (List Char)}
    (hblank : ∀ part ∈ ps, ∀ c ∈ part, isBlank c = false) {ss : List Query} :
    ps.mapM (b.compilePart key) = .ok ss ↔
      (∀ part ∈ ps, b.Admits part) ∧
        ∃ texts, List.Forall₂ (Starts b.element b.separator.toList) ps texts ∧
          (texts.map fun text => beginsWith key (b.lead ++ text)) = ss := by
  induction ps generalizing ss with
  | nil =>
    rw [mapM_nil_eq_ok]
    constructor
    · rintro rfl
      exact ⟨by simp, [], .nil, rfl⟩
    · rintro ⟨-, texts, htexts, rfl⟩
      rw [List.forall₂_nil_left_iff.1 htexts, List.map_nil]
  | cons part ps ih =>
    rw [List.forall_mem_cons] at hblank ⊢
    rw [mapM_cons_eq_ok]
    constructor
    · rintro ⟨s, ss, hs, hss, rfl⟩
      obtain ⟨hadmits, text, htext, rfl⟩ := (compilePart_eq_ok hfirst hblank.1).1 hs
      obtain ⟨hall, texts, htexts, rfl⟩ := (ih hblank.2).1 hss
      exact ⟨⟨hadmits, hall⟩, text :: texts, .cons htext htexts, rfl⟩
    · rintro ⟨⟨hadmits, hall⟩, _ | ⟨text, texts⟩, htexts, rfl⟩
      · cases htexts
      · obtain ⟨htext, htexts⟩ := List.forall₂_cons.1 htexts
        exact ⟨_, _, (compilePart_eq_ok hfirst hblank.1).2 ⟨hadmits, text, htext, rfl⟩,
          (ih hblank.2).2 ⟨hall, texts, htexts, rfl⟩, rfl⟩

/-! ### Intervals -/

variable {s : Token.Split}

/-- The errors of an element say that it is no number. -/
theorem eq_invalidNumber {el : Element} {e : Error} (h : el.reader t = .error e) :
    e = .invalidNumber (String.ofList t) := by
  cases el with
  | integer => exact (Reader.orInvalid_eq_error.1 (map_eq_error.1 h)).2
  | text => cases h

/-- The box speaks of an interval exactly if some element, leading or typed, has an inner dash. -/
theorem start_eq_interval_iff :
    b.start typed = .error (.rejected intervalMessage) ↔
      ∃ e ∈ b.leadingTexts ++ typed, hasInnerDash e = true := by
  refine ⟨fun hstart => ?_, start_of_dash⟩
  by_contra h
  rw [start_of_noDash h, map_eq_error] at hstart
  obtain ⟨t, -, ht⟩ := exists_of_mapM_error hstart
  cases eq_invalidNumber ht

/-- A dash that separates the ends of an interval stands behind the first character. -/
theorem hasInnerDash_of_split? {dashes : Bool} (h : Token.split? dashes t = some s)
    (hdash : s.separator = .dash) : hasInnerDash t = true := by
  obtain ⟨c, low, hlow⟩ := List.exists_cons_of_ne_nil (Token.low_ne_nil_of_split? h)
  rw [← Token.text_of_split? h, hlow, hdash]
  simp [hasInnerDash, Token.Separator.text]

/-- An interval without such a dash has dots, so it is no integer. -/
theorem readInteger_ne_ok_of_split? {dashes : Bool} (h : Token.split? dashes t = some s)
    (hnone : ¬ hasInnerDash t = true) (n : Int) : Reader.readInteger t ≠ .ok n := by
  intro hn
  cases hsep : s.separator with
  | dash => exact hnone (hasInnerDash_of_split? h hsep)
  | dots =>
    refine Reader.not_mem_of_readInteger hn (c := '.') (by simp) ?_
    rw [← Token.text_of_split? h, hsep]
    simp [Token.Separator.text]

/-- Texts are stored as they are, intervals among them too. -/
theorem start_text (htext : b.element = .text)
    (h : ¬ ∃ e ∈ b.leadingTexts ++ typed, hasInnerDash e = true) :
    b.start typed = .ok (.operators (.starting (String.ofList
      (joined b.separator.toList (b.leadingTexts ++ typed))))) := by
  let vs : List Scalar := typed.map fun t => .string (String.ofList t)
  have hvs : typed.mapM Reader.text = .ok vs :=
    mapM_of_forall₂ (List.forall₂_map_right_iff.2 (List.forall₂_same.2 fun _ _ => rfl))
  have hshown : vs.map Scalar.shown = typed := by
    rw [List.map_map]
    exact List.map_id'' (fun _ => String.toList_ofList) typed
  rw [start_of_noDash h, htext, map_eq_ok]
  exact ⟨vs, hvs, by rw [hshown, joined_leadingTexts]⟩

/-- Integers with an interval among them are refused for the first element that is no integer. -/
theorem start_integer_of_split? (hinteger : b.element = .integer)
    (h : ¬ ∃ e ∈ b.leadingTexts ++ typed, hasInnerDash e = true)
    (hsplit : ∃ t ∈ typed, (Token.split? true t).isSome = true) :
    ∃ before t after, typed = before ++ t :: after ∧
      (∀ t' ∈ before, ∃ n, Reader.readInteger t' = .ok n) ∧
      (∀ n, Reader.readInteger t ≠ .ok n) ∧
      b.start typed = .error (.invalidNumber (String.ofList t)) := by
  have hread {t : List Char} {v : Scalar} (hv : Reader.integer t = .ok v) :
      ∃ n, Reader.readInteger t = .ok n := by
    obtain ⟨n, hn, -⟩ := map_eq_ok.1 hv
    exact ⟨n, hn⟩
  rw [start_of_noDash h, hinteger]
  cases htyped : typed.mapM Reader.integer with
  | ok vs =>
    obtain ⟨t, ht, hsome⟩ := hsplit
    obtain ⟨s, hs⟩ := Option.isSome_iff_exists.1 hsome
    obtain ⟨v, -, hv⟩ := exists_mem_of_mapM htyped ht
    obtain ⟨n, hn⟩ := hread hv
    have hnone : ¬ hasInnerDash t = true := fun hdash => h ⟨t, List.mem_append_right _ ht, hdash⟩
    exact absurd hn (readInteger_ne_ok_of_split? hs hnone n)
  | error e =>
    obtain ⟨before, t, after, heq, hbefore, ht⟩ := mapM_eq_error.1 htyped
    obtain rfl := @eq_invalidNumber t .integer e ht
    have hrefuses (n : Int) : Reader.readInteger t ≠ .ok n := by
      rw [map_eq_error.1 ht]
      exact fun hn => nomatch hn
    refine ⟨before, t, after, heq, fun t' ht' => ?_, hrefuses, map_eq_error.2 htyped⟩
    obtain ⟨v, hv⟩ := hbefore t' ht'
    exact hread hv

end Beginning

end Sequence

open Sequence

namespace Box

variable {b : Sequence.Beginning} {form : Form} {q : Query} {args : Arguments} {field raw : String}

/-- The parts of a text that was prepared have no blanks. -/
theorem not_blank_of_mem_parts {part : List Char}
    (hpart : part ∈ parts ((Kind.beginning b).box.policy.prepare raw.toList)) :
    ∀ c ∈ part, isBlank c = false := fun _ hc =>
  (Cleaning.isStripped_eq_false
    ((Kind.beginning b).cleans_policy.isStripped_of_mem_prepare (mem_of_mem_parts hpart hc))).2.2

/-- A text is accepted if the leading elements admit all of its parts and the typed elements are in
order. -/
theorem call_beginning_iff (hfirst : b.firstField = none)
    (ht : (Kind.beginning b).box.typed? form args = some (field, raw)) {d : Query} :
    let box := (Kind.beginning b).box
    let key := (box.contextOf args field).key
    let ps := parts (box.policy.prepare raw.toList)
    (box.call form q args).result = .ok () ∧ (box.call form q args).query = d ↔
      Cleaning.checkSpaces raw.toList = .ok () ∧ (∀ part ∈ ps, b.Admits part) ∧
        ∃ texts, List.Forall₂ (Beginning.Starts b.element b.separator.toList) ps texts ∧
          gathered q (texts.map fun text => Beginning.beginsWith key (b.lead ++ text)) = d := by
  intro box key ps
  have hb : box.compile = byParts b.compilePart := rfl
  have hmembers (ss : List Query) : ps.mapM (b.compilePart key) = .ok ss ↔ _ :=
    Beginning.mapM_compilePart_eq_ok hfirst fun _ hpart => not_blank_of_mem_parts hpart
  rw [byParts_eq_ok hb ht]
  refine and_congr_right fun _ => ?_
  constructor
  · rintro ⟨ss, hss, rfl⟩
    obtain ⟨hadmits, texts, htexts, rfl⟩ := (hmembers ss).1 hss
    exact ⟨hadmits, texts, htexts, rfl⟩
  · rintro ⟨hadmits, texts, htexts, rfl⟩
    exact ⟨_, (hmembers _).2 ⟨hadmits, texts, htexts, rfl⟩, rfl⟩

/-- What becomes of a part that is typed alone. -/
theorem beginning_alone_iff (b : Sequence.Beginning) (field : String) {text : String}
    (hpart : IsPart text.toList) :
    let args : Arguments := { field := some field }
    let box := (Kind.beginning b).box
    let o := box.call (.ofList [(field, text)]) .empty args
    (∀ s, o.result = .ok () ∧ o.query = s ↔
      b.compilePart (box.contextOf args field).key text.toList = .ok s) ∧
    ∀ e, o.result = .error e ↔
      b.compilePart (box.contextOf args field).key text.toList = .error e := by
  intro args box o
  have hfield : box.field? args = some field := rfl
  have hlone := lonePart_iff (b := box) rfl rfl hpart hfield {}
  rwa [String.ofList_toList] at hlone

/-- **What the leading elements change.** Let a text be typed into the box for the beginning of a
stored text that has no column for the first element. With the leading elements the box accepts the
text if and only if it does without them and, as soon as there is a part, no leading element has a dash
behind its first character, and as soon as there is a group, none is empty. Without them every part
becomes a prefix. With them the prefixes are the leading elements as they are, with the separator
behind each, and then these same prefixes: in the single query, or in the alternatives in order. -/
theorem call_leadingElements (hfirst : b.firstField = none)
    (ht : (Kind.beginning b).box.typed? form args = some (field, raw)) :
    let bare : Sequence.Beginning := { b with leading := [] }
    let box := (Kind.beginning b).box
    let key := (box.contextOf args field).key
    let ps := parts (box.policy.prepare raw.toList)
    let lead := Beginning.joined b.separator.toList b.leadingTexts
    let out := box.call form q args
    let plain := (Kind.beginning bare).box.call form q args
    (out.result = .ok () ↔ plain.result = .ok () ∧
      ∀ part ∈ ps, (∀ s ∈ b.leading, Beginning.hasInnerDash s.toList = false) ∧
        (Token.opensBracket part = true → "" ∉ b.leading)) ∧
    (plain.result = .ok () → ∃ texts : List (List Char), texts.length = ps.length ∧
      plain.query = gathered q (texts.map (Beginning.beginsWith key)) ∧
      (out.result = .ok () →
        out.query = gathered q (texts.map fun text => Beginning.beginsWith key (lead ++ text)))) := by
  intro bare box key ps lead out plain
  have hout {d : Query} := call_beginning_iff (q := q) (d := d) hfirst ht
  have hplain {d : Query} : plain.result = .ok () ∧ plain.query = d ↔
      Cleaning.checkSpaces raw.toList = .ok () ∧ (∀ part ∈ ps, bare.Admits part) ∧
        ∃ texts, List.Forall₂ (Beginning.Starts b.element b.separator.toList) ps texts ∧
          gathered q (texts.map (Beginning.beginsWith key)) = d :=
    call_beginning_iff (b := bare) hfirst ht
  have hbare : ∀ part ∈ ps, bare.Admits part := fun part _ =>
    ⟨fun s hs => absurd hs List.not_mem_nil, fun _ => List.not_mem_nil⟩
  refine ⟨⟨fun hok => ?_, ?_⟩, fun hok => ?_⟩
  · obtain ⟨hspaces, hadmits, texts, htexts, -⟩ := hout.1 ⟨hok, rfl⟩
    exact ⟨(hplain.2 ⟨hspaces, hbare, texts, htexts, rfl⟩).1, hadmits⟩
  · rintro ⟨hok, hadmits⟩
    obtain ⟨hspaces, -, texts, htexts, -⟩ := hplain.1 ⟨hok, rfl⟩
    exact (hout.2 ⟨hspaces, hadmits, texts, htexts, rfl⟩).1
  · obtain ⟨hspaces, -, texts, htexts, hquery⟩ := hplain.1 ⟨hok, rfl⟩
    refine ⟨texts, htexts.length_eq.symm, hquery.symm, fun hok' => ?_⟩
    obtain ⟨-, hadmits, -⟩ := hout.1 ⟨hok', rfl⟩
    exact (hout.2 ⟨hspaces, hadmits, texts, htexts, rfl⟩).2

/-- Leading elements in front of a group and of a bare token. -/
theorem call_leadingElements_group :
    let b : Sequence.Beginning := { separator := "_", leading := ["N", "2a"] }
    let bare : Sequence.Beginning := { b with leading := [] }
    let form := Form.ofList [("n", "[07],3")]
    let ps := ["[07]".toList, "3".toList]
    let out := (Kind.beginning b).box.call form .empty { field := some "n" }
    let plain := (Kind.beginning bare).box.call form .empty { field := some "n" }
    joined ',' ps = "[07],3".toList ∧
    (plain.result = .ok () ∧ plain.query = .anyOf [Beginning.beginsWith "n" "7_".toList,
      Beginning.beginsWith "n" "3_".toList]) ∧
    out.result = .ok () ∧ out.query = .anyOf [Beginning.beginsWith "n" "N_2a_7_".toList,
      Beginning.beginsWith "n" "N_2a_3_".toList] := by
  intro b bare form ps out plain
  have hps : ∀ p ∈ ps, IsPart p := by
    have hgroup : IsPart "[07]".toList := @IsPart.group "07".toList (by simp) (by simp; decide)
    have htoken : IsPart "3".toList := .token (by simp) (by simp) (by simp; decide)
    simpa [ps] using ⟨hgroup, htoken⟩
  have hraw : joined ',' ps = "[07],3".toList := by decide
  have hparts := hraw ▸ parts_prepare_joined (b := (Kind.beginning b).box) rfl hps
  have hbare : (Kind.beginning bare).box.compile = byParts bare.compilePart := rfl
  have ht : (Kind.beginning b).box.typed? form { field := some "n" } = some ("n", "[07],3") := rfl
  have ht' : (Kind.beginning bare).box.typed? form { field := some "n" } = some ("n", "[07],3") := rfl
  have hcompile : ["[07]".toList, "3".toList].mapM
      (Beginning.compilePart { separator := "_" } "n") =
        .ok (["7_".toList, "3_".toList].map (Beginning.beginsWith "n")) := rfl
  have hplain := ((joinedParts_iff (q := .empty) hbare rfl hps ht' hraw.symm).1 _).2 ⟨_, hcompile, rfl⟩
  obtain ⟨hiff, htexts⟩ := call_leadingElements (q := .empty) rfl ht
  have hout : out.result = .ok () :=
    hiff.2 ⟨hplain.1, fun _ _ => ⟨by simp [b]; decide, fun _ => by simp [b]⟩⟩
  obtain ⟨texts, hlength, hquery, hprefixes⟩ := htexts hplain.1
  -- The prefixes without the leading elements are known, and so are those with them.
  have htwo : texts = ["7_".toList, "3_".toList] := by
    rw [hparts] at hlength
    obtain ⟨s, t, rfl⟩ := List.length_eq_two.1 hlength
    have hsame : some (["7_".toList, "3_".toList].map (Beginning.beginsWith "n")) =
        some ([s, t].map (Beginning.beginsWith "n")) :=
      congrArg Query.alternatives (hplain.2.symm.trans hquery)
    exact ((Beginning.beginsWith_injective "n").list_map (Option.some.inj hsame)).symm
  have hlead : Beginning.joined b.separator.toList b.leadingTexts = "N_2a_".toList := by decide
  refine ⟨hraw, hplain, hout, ?_⟩
  rw [hprefixes hout, htwo, hlead]
  rfl

/-- A leading element with a dash has every text refused, and an empty one has every group refused,
which are accepted without it; a bare token may stand behind an empty one. -/
theorem leadingElements_refuse :
    let call (leading : List String) (text : String) :=
      (Kind.beginning { leading := leading }).box.call (.ofList [("n", text)]) .empty
        { field := some "n" }
    (call [] "3").result = .ok () ∧ (call [] "[3]").result = .ok () ∧
    (call ["a-b"] "3").result = .error (.rejected Beginning.intervalMessage) ∧
    (call [""] "3").result = .ok () ∧
    (call [""] "[3]").result = .error (.rejected Beginning.emptyMessage) := by
  intro call
  have htoken : IsPart "3".toList := .token (by simp) (by simp) (by simp; decide)
  have hgroup : IsPart "[3]".toList := @IsPart.group "3".toList (by simp) (by simp; decide)
  have hlone (leading : List String) {text : String} (hpart : IsPart text.toList) :=
    beginning_alone_iff { leading := leading } "n" hpart
  exact ⟨(((hlone [] htoken).1 _).2 rfl).1, (((hlone [] hgroup).1 _).2 rfl).1,
    ((hlone ["a-b"] htoken).2 _).2 rfl, (((hlone [""] htoken).1 _).2 rfl).1,
    ((hlone [""] hgroup).2 _).2 rfl⟩

/-- **What becomes of an interval.** Let a single part be typed into the box for the beginning of a
stored text that has no column for the first element. Let no element be empty, the leading ones
included, and let a typed one be such that the range compiler would cut it in two. The text is refused
as an interval if and only if some element, typed or leading, has a dash behind its first character. A
typed element that would be cut at a dash has one. Otherwise texts are stored as they are, with the
dots of the interval in them, and integers are refused with the error of the first typed element that
is none. Whatever is refused leaves the query as it was. -/
theorem call_interval (hfirst : b.firstField = none)
    (ht : (Kind.beginning b).box.typed? form args = some (field, raw))
    (hspaces : Cleaning.checkSpaces raw.toList = .ok ()) {part : List Char}
    (hpart : parts ((Kind.beginning b).box.policy.prepare raw.toList) = [part])
    (hne : ∀ e ∈ b.leadingTexts ++ typedElements part, e ≠ [])
    (hsplit : ∃ t ∈ typedElements part, (Token.split? true t).isSome = true) :
    let box := (Kind.beginning b).box
    let key := (box.contextOf args field).key
    let typed := typedElements part
    let elements := b.leadingTexts ++ typed
    let out := box.call form q args
    let isRefused := out.result = .error (.rejected Beginning.intervalMessage)
    (isRefused ↔ ∃ e ∈ elements, Beginning.hasInnerDash e = true) ∧
    (∀ t ∈ typed, ∀ s, Token.split? true t = some s → s.separator = .dash → isRefused) ∧
    (¬ isRefused → b.element = .text → out.result = .ok () ∧
      out.query = q.insert key (.operators
        { start := some (String.ofList (Beginning.joined b.separator.toList elements)) })) ∧
    (¬ isRefused → b.element = .integer → ∃ before t after, typed = before ++ t :: after ∧
      (∀ t' ∈ before, ∃ n, Reader.readInteger t' = .ok n) ∧
      (∀ n, Reader.readInteger t ≠ .ok n) ∧
      out.result = .error (.invalidNumber (String.ofList t))) ∧
    (out.result ≠ .ok () → out.query = q) := by
  intro box key typed elements out isRefused
  have hb : box.compile = byParts b.compilePart := rfl
  obtain ⟨hok, herror⟩ := singlePart_iff (q := q) hb ht hspaces hpart
  have hcompile : b.compilePart key part = (b.start typed).map (.single key) :=
    Beginning.compilePart_of_ne_nil hfirst
      (not_blank_of_mem_parts (hpart ▸ List.mem_singleton_self part)) hne
  have hstartOk {o : Constraint} (ho : b.start typed = .ok o) :
      out.result = .ok () ∧ out.query = q.insert key o := by
    rw [hok, hcompile]
    exact ⟨.single key o, map_eq_ok.2 ⟨o, ho, rfl⟩, Query.update_single q key o⟩
  have hstartError (e : Error) : out.result = .error e ↔ b.start typed = .error e := by
    rw [herror, hcompile, map_eq_error]
  have hrefused : isRefused ↔ ∃ e ∈ elements, Beginning.hasInnerDash e = true :=
    (hstartError _).trans Beginning.start_eq_interval_iff
  refine ⟨hrefused, fun t ht s hs hdash => ?_, fun hnot htext => ?_, fun hnot hinteger => ?_,
    fun hnot => ?_⟩
  · exact hrefused.2 ⟨t, List.mem_append_right _ ht, Beginning.hasInnerDash_of_split? hs hdash⟩
  · exact hstartOk (Beginning.start_text htext fun h => hnot (hrefused.2 h))
  · obtain ⟨before, t, after, heq, hbefore, ht, hstart⟩ :=
      Beginning.start_integer_of_split? hinteger (fun h => hnot (hrefused.2 h)) hsplit
    exact ⟨before, t, after, heq, hbefore, ht, (hstartError _).2 hstart⟩
  · cases hresult : out.result with
    | ok => exact absurd hresult hnot
    | error e => exact byParts_query_of_error hb hresult

/-- Intervals of both spellings, among texts and among integers. -/
theorem call_interval_spellings :
    let texts : Sequence.Beginning := { element := .text, leading := ["N"] }
    let integers : Sequence.Beginning := {}
    let form := Form.ofList [("a", "[1..3,2]"), ("b", "[2,1..3]"), ("c", "1-3")]
    let a := (Kind.beginning texts).box.call form .empty { field := some "a" }
    let b := (Kind.beginning integers).box.call form .empty { field := some "b" }
    let c := (Kind.beginning texts).box.call form .empty { field := some "c" }
    (a.result = .ok () ∧ a.query = Beginning.beginsWith "a" "N 1..3 2 ".toList) ∧
    (b.result = .error (.invalidNumber "1..3") ∧ b.query = .empty) ∧
    c.result = .error (.rejected Beginning.intervalMessage) ∧ c.query = .empty := by
  intro texts integers form a b c
  have hpa : IsPart "[1..3,2]".toList :=
    @IsPart.group "1..3,2".toList (by simp) (by simp; decide)
  have hpb : IsPart "[2,1..3]".toList :=
    @IsPart.group "2,1..3".toList (by simp) (by simp; decide)
  have hpc : IsPart "1-3".toList := .token (by simp) (by simp) (by simp; decide)
  have hta : (Kind.beginning texts).box.typed? form { field := some "a" } =
      some ("a", "[1..3,2]") := rfl
  have htb : (Kind.beginning integers).box.typed? form { field := some "b" } =
      some ("b", "[2,1..3]") := rfl
  have htc : (Kind.beginning texts).box.typed? form { field := some "c" } =
      some ("c", "1-3") := rfl
  have ha := call_interval (q := .empty) rfl hta hpa.checkSpaces (parts_prepare_part rfl hpa)
    (by decide) ⟨"1..3".toList, by decide, by decide⟩
  have hb := call_interval (q := .empty) rfl htb hpb.checkSpaces (parts_prepare_part rfl hpb)
    (by decide) ⟨"1..3".toList, by decide, by decide⟩
  have hc := call_interval (q := .empty) rfl htc hpc.checkSpaces (parts_prepare_part rfl hpc)
    (by decide) ⟨"1-3".toList, by decide, by decide⟩
  have hnota := (not_congr ha.1).2 (by decide)
  have hnotb := (not_congr hb.1).2 (by decide)
  have hrefused := hc.2.1 _ (List.mem_singleton_self _) ⟨['1'], .dash, ['3']⟩ rfl rfl
  have hjoined : Beginning.joined texts.separator.toList
      (texts.leadingTexts ++ typedElements "[1..3,2]".toList) = "N 1..3 2 ".toList := by decide
  have hstored := ha.2.2.1 hnota rfl
  rw [hjoined] at hstored
  have hinvalid : b.result = .error (.invalidNumber "1..3") := by
    obtain ⟨before, t, after, htyped, -, hread, herror⟩ := hb.2.2.2.1 hnotb rfl
    change ["2".toList, "1..3".toList] = before ++ t :: after at htyped
    rcases before with _ | ⟨x, _ | ⟨y, before⟩⟩
    · cases htyped
      exact absurd rfl (hread 2)
    · cases htyped
      exact herror
    · simp at htyped
  exact ⟨hstored, ⟨hinvalid, hb.2.2.2.2 fun hok => nomatch hinvalid.symm.trans hok⟩, hrefused,
    hc.2.2.2.2 fun hok => nomatch hrefused.symm.trans hok⟩

/-- Two dots are no interval to the box, though the range compiler cuts there: a text with them is
stored, and for an integer with them the error is that of any text that is no number. -/
theorem interval_stored :
    let call (element : Element) (text : String) :=
      (Kind.beginning { element := element }).box.call (.ofList [("n", text)]) .empty
        { field := some "n" }
    Token.split? true "1..3".toList = some ⟨['1'], .dots, ['3']⟩ ∧
    ((call .text "[1..3]").result = .ok () ∧
      (call .text "[1..3]").query = Beginning.beginsWith "n" "1..3 ".toList) ∧
    (call .integer "[2,1..3]").result = .error (.invalidNumber "1..3") := by
  intro call
  have hone : IsPart "[1..3]".toList := @IsPart.group "1..3".toList (by simp) (by simp; decide)
  have htwo : IsPart "[2,1..3]".toList := @IsPart.group "2,1..3".toList (by simp) (by simp; decide)
  exact ⟨rfl, ((beginning_alone_iff { element := .text } "n" hone).1 _).2 rfl,
    ((beginning_alone_iff { element := .integer } "n" htwo).2 _).2 rfl⟩

end Box

end SearchBox
