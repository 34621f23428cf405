import SearchBox.Pattern.Reader
import SearchBox.Proofs.Cleaning
import SearchBox.Proofs.Lone

/-!
# Aliases that can be typed

A table keeps its aliases in lower case and otherwise as they are, but the text of a box loses its
blanks, its angle brackets and all that is not in ASCII before it is looked up. So an alias is looked
up under its own key exactly if it `IsPlain` (`AliasTable.lower_normalized_eq_iff`), and such an alias
compiles to its label (`Registry.compile_of_alias`).
-/

namespace SearchBox

open Text

/-! ### Lower case -/

namespace Text

variable {before cs : List Char} {c d : Char}

theorem lowerChar_ne_nil (c : Char) : lowerChar c ≠ [] := by
  unfold lowerChar
  split <;> simp

/-- The lower case of an ASCII character is one, too. -/
theorem exists_lowerChar_of_lt (h : c.toNat < 128) : ∃ d, lowerChar c = [d] ∧ d.toNat < 128 := by
  have hne : c.toNat ≠ 0x130 := by omega
  have hfirst : ∀ row ∈ lowerRows.tail, 128 ≤ row.first := by decide +kernel
  have htail : lowerRows.tail.findSome? (·.find? c.toNat) = none := by
    refine List.findSome?_eq_none_iff.2 fun row hrow => ?_
    have hlt := hfirst row hrow
    rw [CaseRow.find?, if_neg (by omega)]
  -- Only the first row of the table is about ASCII.
  have hrows : lowerRows.findSome? (·.find? c.toNat) =
      CaseRow.find? ⟨0x41, 0x5A, 1, 32⟩ c.toNat := by
    show List.findSome? (·.find? c.toNat) (⟨0x41, 0x5A, 1, 32⟩ :: lowerRows.tail) = _
    rw [List.findSome?_cons, htail]
    cases CaseRow.find? ⟨0x41, 0x5A, 1, 32⟩ c.toNat <;> rfl
  refine ⟨_, by rw [lowerChar, if_neg hne], ?_⟩
  rw [hrows, CaseRow.find?]
  split
  · rename_i hletter
    have hle : c.toNat ≤ 0x5A := hletter.2.1
    have hlt : ((c.toNat : Int) + 32).toNat < 128 := by omega
    have hascii : ∀ n < 128, (Char.ofNat n).toNat < 128 := by decide
    exact hascii _ hlt
  · exact h

/-- No character disappears in lower case. -/
theorem length_le_length_lowerAfter (before cs : List Char) :
    cs.length ≤ (lowerAfter before cs).length := by
  induction cs generalizing before with
  | nil => exact Nat.zero_le _
  | cons c cs ih =>
    have hrest := ih (c :: before)
    have hpos := List.length_pos_iff.2 (lowerChar_ne_nil c)
    simp only [lowerAfter, List.length_append, List.length_cons]
    split
    · rw [List.length_singleton]
      omega
    · omega

/-- A text in ASCII has its lower case in ASCII, and of the same length. -/
theorem lowerAfter_of_lt (h : ∀ c ∈ cs, c.toNat < 128) (before : List Char) :
    (lowerAfter before cs).length = cs.length ∧ ∀ d ∈ lowerAfter before cs, d.toNat < 128 := by
  induction cs generalizing before with
  | nil => exact ⟨rfl, by simp [lowerAfter]⟩
  | cons c cs ih =>
    rw [List.forall_mem_cons] at h
    obtain ⟨d, hd, hlt⟩ := exists_lowerChar_of_lt h.1
    obtain ⟨hlen, hrest⟩ := ih h.2 (c :: before)
    have hne : c ≠ 'Σ' := by
      rintro rfl
      exact absurd h.1 (by decide)
    have heq : lowerAfter before (c :: cs) = d :: lowerAfter (c :: before) cs := by
      simp only [lowerAfter, if_neg hne, hd, List.singleton_append]
    rw [heq, List.length_cons, List.length_cons, hlen, List.forall_mem_cons]
    exact ⟨rfl, hlt, hrest⟩

theorem mem_lowerAfter (hc : c ∈ cs) (hne : c ≠ 'Σ') (hd : d ∈ lowerChar c)
    (before : List Char) : d ∈ lowerAfter before cs := by
  induction cs generalizing before with
  | nil => cases hc
  | cons c' cs ih =>
    unfold lowerAfter
    rcases List.mem_cons.1 hc with rfl | hc
    · rw [if_neg hne]
      exact List.mem_append_left _ hd
    · exact List.mem_append_right _ (ih hc (c' :: before))

end Text

/-! ### Plain aliases -/

namespace AliasTable

/-- The text is in ASCII, without blanks and angle brackets. -/
def IsPlain (cs : List Char) : Prop :=
  ∀ c ∈ cs, c.toNat < 128 ∧ Cleaning.isStripped false c = false

instance : DecidablePred IsPlain := fun cs =>
  List.decidableBAll (fun c : Char => c.toNat < 128 ∧ Cleaning.isStripped false c = false) cs

variable {cs : List Char}

theorem IsPlain.stripped_eq (h : IsPlain cs) : Cleaning.stripped false cs = cs :=
  Cleaning.stripped_of_not_mem fun c hc => (h c hc).2

theorem IsPlain.normalized_eq (h : IsPlain cs) : normalized cs = cs := by
  have hkeep : ∀ c ∈ cs, (if c = '\u2212' then '-' else c) = c := by
    intro c hc
    have hne : c ≠ '\u2212' := by
      rintro rfl
      exact absurd (h _ hc).1 (by decide)
    rw [if_neg hne]
  rw [normalized, List.map_congr_left hkeep, List.map_id']
  exact List.filter_eq_self.2 fun c hc => by simpa using (h c hc).1

theorem length_normalized_le (cs : List Char) : (normalized cs).length ≤ cs.length := by
  have hlen := List.length_filter_le (fun c : Char => decide (c.toNat < 128))
    (cs.map fun c => if c = '\u2212' then '-' else c)
  rwa [List.length_map] at hlen

/-- If nothing is dropped, then all characters but minus signs are in ASCII. -/
theorem lt_of_length_normalized (h : (normalized cs).length = cs.length) {c : Char} (hc : c ∈ cs) :
    c.toNat < 128 ∨ c = '\u2212' := by
  by_cases hminus : c = '\u2212'
  · exact .inr hminus
  · have hmap : (cs.map fun c => if c = '\u2212' then '-' else c).length = cs.length :=
      List.length_map _
    have hall := List.length_filter_eq_length_iff.1 (h.trans hmap.symm)
    have hlt := hall c (List.mem_map.2 ⟨c, hc, if_neg hminus⟩)
    exact .inl (by simpa using hlt)

/-- If an alias is looked up under its own key, then nothing of it was dropped: nothing gets longer
before it is looked up, and nothing gets shorter in the key. -/
theorem length_eq_of_lower_eq (h : lower (normalized (Cleaning.stripped false cs)) = lower cs) :
    (normalized (Cleaning.stripped false cs)).length = (Cleaning.stripped false cs).length ∧
      (Cleaning.stripped false cs).length = cs.length := by
  have hnormalized := length_normalized_le (Cleaning.stripped false cs)
  have hstripped : (Cleaning.stripped false cs).length ≤ cs.length := List.length_filter_le _ _
  have hkey : cs.length ≤ (lower cs).length := length_le_length_lowerAfter [] cs
  have hlookup : (lower (normalized (Cleaning.stripped false cs))).length =
      (normalized (Cleaning.stripped false cs)).length :=
    (lowerAfter_of_lt (fun _ => lt_of_mem_normalized) []).1
  rw [h] at hlookup
  omega

/-- A minus sign is its own lower case, so it stands in the key but not in what is looked up. -/
theorem minus_not_mem_of_lower_eq
    (h : lower (normalized (Cleaning.stripped false cs)) = lower cs) : '\u2212' ∉ cs := by
  intro hminus
  have hkey : '\u2212' ∈ lower cs := mem_lowerAfter hminus (by decide) (by decide +kernel) []
  have hlookup : ∀ c ∈ lower (normalized (Cleaning.stripped false cs)), c.toNat < 128 :=
    (lowerAfter_of_lt (fun _ => lt_of_mem_normalized) []).2
  rw [h] at hlookup
  exact absurd (hlookup _ hkey) (by decide)

/-- **An alias is looked up under its own key exactly if it is plain.** -/
theorem lower_normalized_eq_iff :
    lower (normalized (Cleaning.stripped false cs)) = lower cs ↔ IsPlain cs := by
  constructor
  · intro h
    obtain ⟨hnormalized, hstripped⟩ := length_eq_of_lower_eq h
    have hnone : ∀ c ∈ cs, Cleaning.isStripped false c = false := fun c hc => by
      simpa using List.length_filter_eq_length_iff.1 hstripped c hc
    rw [Cleaning.stripped_of_not_mem hnone] at hnormalized
    intro c hc
    refine ⟨?_, hnone c hc⟩
    rcases lt_of_length_normalized hnormalized hc with hlt | rfl
    · exact hlt
    · exact absurd hc (minus_not_mem_of_lower_eq h)
  · intro h
    rw [h.stripped_eq, h.normalized_eq]

/-! ### Looking up -/

/-- The label of an alias stands under its key, unless another alias has the same one. -/
theorem get?_names_ofList {names : List (String × String)} {name label : String}
    (hmem : (name, label) ∈ names)
    (honly : ∀ e ∈ names, lower e.1.toList = lower name.toList → e = (name, label))
    (pattern : Option Search) :
    (ofList names pattern).names.get? (String.ofList (lower name.toList)) = some label := by
  refine OrderedMap.get?_ofList_of_mem (List.mem_map.2 ⟨(name, label), hmem, rfl⟩) ?_
  intro _ hentry hkey
  obtain ⟨e, he, rfl⟩ := List.mem_map.1 hentry
  rw [honly e he (String.ofList_injective hkey)]

theorem IsPlain.resolve_eq {t : AliasTable} {label : String} (h : IsPlain cs) (hne : cs ≠ [])
    (hlabel : t.names.get? (String.ofList (lower cs)) = some label) : t.resolve cs = .ok label := by
  have hempty : cs.isEmpty = false := by simpa using hne
  rw [resolve, h.normalized_eq]
  simp only [hempty, Bool.false_eq_true, if_false, hlabel]

/-- A box of labels turns a plain alias into its label. -/
theorem IsPlain.call_label {t : AliasTable} {name label : String} (h : IsPlain name.toList)
    (hne : name ≠ "")
    (hlabel : t.names.get? (String.ofList (lower name.toList)) = some label) {form : Form}
    {field : String} (hname : form.get? field = some name) (shown : Option String)
    (key : String) :
    (Kind.label t.resolve).box.call form .empty ⟨some field, shown, some key⟩ =
      ⟨form, .single key (.value (.string label)), .ok ()⟩ := by
  have hnil : name.toList ≠ [] := by simpa using hne
  have hprepare : (Kind.label t.resolve).box.policy.prepare name.toList = name.toList :=
    h.stripped_eq
  have hcompile : (Kind.label t.resolve).box.compile =
      Kind.stored fun text => (t.resolve text).map .string := rfl
  refine Box.call_eq_ok.2 (.inr ⟨field, name, ?_, ?_, ?_, rfl⟩)
  · exact Box.typed?_eq_some.2 ⟨rfl, hname, by simpa using hne⟩
  · exact Cleaning.checkSpaces_of_not_blank fun c hc =>
      (Cleaning.isStripped_eq_false (h c hc).2).2.2
  · rw [hprepare, hcompile]
    refine Kind.stored_eq_ok.2 ⟨.string label, ?_, rfl⟩
    rw [h.resolve_eq hnil hlabel]
    rfl

end AliasTable

/-! ### Configured boxes of labels -/

namespace Registry

variable {engine : SearchEngine} {c : Config} {r : Registry} {a : AliasConfig} {f : FieldConfig}

/-- The box of a label field looks into the table of the configured aliases. -/
theorem exists_label_entry (hr : ofConfig engine c = .ok r) (ha : c.aliases = some a) (hf : f ∈ c.fields)
    (hkind : f.kind = .label) :
    ∃ e ∈ r.entries, ∃ pattern, e.name = f.name ∧ e.key = f.queryKey ∧
      e.source = .fixed (.label (AliasTable.ofList a.names pattern).resolve) := by
  unfold ofConfig at hr
  rw [ha] at hr
  obtain ⟨table, htable, hbuild⟩ := bind_eq_ok.1 hr
  have hnames : ∃ pattern, table = .ofList a.names pattern := by
    unfold aliasTable at htable
    split at htable
    · cases htable
      exact ⟨none, rfl⟩
    · split at htable
      · rename_i p _
        cases htable
        exact ⟨some p, rfl⟩
      · cases htable
  obtain ⟨pattern, rfl⟩ := hnames
  obtain ⟨e, he, hentry⟩ := exists_mem_of_mapM (build_eq_ok hbuild).1 hf
  have hsource : source (some (.ofList a.names pattern)) f =
      .ok (.fixed (.label (AliasTable.ofList a.names pattern).resolve)) := by
    simp only [source, hkind]
  unfold entry at hentry
  rw [hsource] at hentry
  cases hentry
  exact ⟨_, he, pattern, rfl, rfl, rfl⟩

/-- **Every plain alias can be used.** In a checked configuration, let an alias that is not empty be
in ASCII, without blanks and angle brackets, and let no other alias have the same lower-case form. Then
the form that holds it in a box of labels, and nothing else, compiles to its label under the key of the
box, and to nothing else. -/
theorem compile_of_alias {name label : String} (hc : c.check = .ok ()) (hr : ofConfig engine c = .ok r)
    (ha : c.aliases = some a) (hf : f ∈ c.fields) (hkind : f.kind = .label)
    (hmem : (name, label) ∈ a.names)
    (honly : ∀ e ∈ a.names, lower e.1.toList = lower name.toList → e = (name, label))
    (hne : name ≠ "") (hplain : AliasTable.IsPlain name.toList) :
    r.compile (.ofList [(f.name, name)]) =
      (.ofList [(f.name, name)], .ok (.single f.queryKey (.value (.string label)))) := by
  obtain ⟨e, he, pattern, hname, hkey, hsource⟩ := exists_label_entry hr ha hf hkind
  have hside : e.side (.ofList [(f.name, name)]) =
      { box := (Kind.label (AliasTable.ofList a.names pattern).resolve).box
        args := ⟨some f.name, e.label, some f.queryKey⟩ } := by
    rw [Entry.side, Entry.kindIn, hsource, hname, hkey]
  have htyped : (Form.ofList [(f.name, name)]).get? f.name = some name :=
    OrderedMap.get?_insert_self .empty f.name name
  have hlabel := AliasTable.get?_names_ofList hmem honly pattern
  have hform : (Form.ofList [(f.name, name)]).HasOnly e.name := by
    rw [hname]
    exact Form.hasOnly_ofList f.name name
  rw [compile_of_hasOnly (valid_ofConfig hc hr) he hform, hside,
    hplain.call_label hne hlabel htyped]
  rfl

/-- An alias with brackets, in the second box of a pair that has a key of its own. -/
theorem compile_of_alias_pair :
    let f : FieldConfig := { name := "field", kind := .label, key := some "base_field" }
    let c : Config :=
      { aliases := some { names := [("Q", "1.1.1.1"), ("Q(i)", "2.0.4.1")] }
        fields := [{ name := "degree", kind := .integers }, f]
        pairs := [⟨"degree", "field"⟩] }
    c.check = .ok () ∧ ∃ r, ofConfig Pattern.engine c = .ok r ∧
      r.compile (.ofList [(f.name, "Q(i)")]) =
        (.ofList [(f.name, "Q(i)")], .ok (.single f.queryKey (.value (.string "2.0.4.1")))) := by
  intro f c
  have hc : c.check = .ok () := rfl
  have hf : f ∈ c.fields := .tail _ (.head _)
  have honly : ∀ e ∈ [("Q", "1.1.1.1"), ("Q(i)", "2.0.4.1")],
      lower e.1.toList = lower "Q(i)".toList → e = ("Q(i)", "2.0.4.1") := by decide +kernel
  have hplain : AliasTable.IsPlain "Q(i)".toList := by decide
  obtain ⟨r, hr⟩ : ∃ r, ofConfig Pattern.engine c = .ok r := ⟨_, rfl⟩
  refine ⟨hc, r, hr, ?_⟩
  exact compile_of_alias hc hr rfl hf rfl (.tail _ (.head _)) honly (by decide) hplain

/-- The other aliases are lost: one with a root sign is looked up without it, and one with a blank is
looked up without the blank. Neither is found. -/
theorem compile_of_alias_not_plain :
    let a : AliasConfig := { names := [("Q√5", "2.2.5.1"), ("Q i", "2.0.4.1")] }
    let c : Config := { aliases := some a, fields := [{ name := "l", kind := .label }] }
    c.check = .ok () ∧ ∃ r, ofConfig Pattern.engine c = .ok r ∧ ∀ e ∈ a.names, e.1 ≠ "" ∧
      (∀ e' ∈ a.names, lower e'.1.toList = lower e.1.toList → e' = e) ∧
      (r.compile (.ofList [("l", e.1)])).2 = .error (.unresolved AliasTable.unknownMessage) := by
  intro a c
  refine ⟨rfl, _, rfl, ?_⟩
  intro e he
  simp only [a, List.mem_cons, List.not_mem_nil, or_false] at he
  rcases he with rfl | rfl
  · exact ⟨by decide, by decide +kernel, rfl⟩
  · exact ⟨by decide, by decide +kernel, rfl⟩

end Registry

end SearchBox
