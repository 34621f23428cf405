import SearchBox.Proofs.Occurrence
import SearchBox.Proofs.Pieces
import SearchBox.Proofs.Refusal

/-!
# Labels typed in another order

The code of a label depends on what was typed before it, so a label may get another code when the
same labels are typed in another order. But the occurrences of each label are numbered from zero
without a gap, whatever stands between them, so all codes together depend on the counts alone
(`encode_perm`). An equal array is stored in its canonical form: the box makes the same of every
order in which its labels are typed (`Box.call_reordered`).
-/

namespace SearchBox

open Text

namespace Occurrence

variable {labels labels' : List String}

/-- The numbered occurrences of the labels depend on the counts of the labels alone. -/
theorem numberedAfter_perm (h : labels.Perm labels') :
    (numberedAfter [] labels).Perm (numberedAfter [] labels') := by
  refine (List.perm_ext_iff_of_nodup (nodup_numberedAfter [] labels)
    (nodup_numberedAfter [] labels')).2 ?_
  rintro ⟨label, n⟩
  rw [mem_numbered, mem_numbered, h.count_eq]

/-- **The same labels in another order get the same texts**, in another order. -/
theorem encode_perm (h : labels.Perm labels') : (encode labels).Perm (encode labels') := by
  rw [encode, encode, encodeAfter_eq_map, encodeAfter_eq_map]
  exact (numberedAfter_perm h).map _

/-- So the stored array is the same. -/
theorem canonical_encode_eq (h : labels.Perm labels') :
    SetCondition.canonical (encode labels) = SetCondition.canonical (encode labels') :=
  SetCondition.canonical_eq_iff.2 fun _ => (encode_perm h).mem_iff

end Occurrence

/-! ### Labels as they are typed -/

/-- The label is read as it is typed: it is not empty, and has no comma and nothing that cleaning
drops. -/
def IsTypable (label : String) : Prop :=
  label.toList ≠ [] ∧ ∀ c ∈ label.toList, c ≠ ',' ∧ Cleaning.isStripped false c = false

instance (label : String) : Decidable (IsTypable label) :=
  @instDecidableAnd _ _ inferInstance
    (List.decidableBAll (fun c : Char => c ≠ ',' ∧ Cleaning.isStripped false c = false)
      label.toList)

/-- The labels with commas between them. -/
def labelList (labels : List String) : List Char := joined ',' (labels.map String.toList)

section LabelList

variable {labels : List String} (hlabels : ∀ l ∈ labels, IsTypable l)

include hlabels

theorem typable_of_mem {p : List Char} (hp : p ∈ labels.map String.toList) :
    p ≠ [] ∧ ∀ c ∈ p, c ≠ ',' ∧ Cleaning.isStripped false c = false := by
  obtain ⟨l, hl, rfl⟩ := List.mem_map.1 hp
  exact hlabels l hl

theorem isStripped_of_mem_labelList {c : Char} (hc : c ∈ labelList labels) :
    Cleaning.isStripped false c = false := by
  rcases mem_joined hc with rfl | ⟨p, hp, hc⟩
  · decide
  · exact ((typable_of_mem hlabels hp).2 c hc).2

theorem labelList_ne_nil (hne : labels ≠ []) : labelList labels ≠ [] :=
  joined_ne_nil (fun _ hp => (typable_of_mem hlabels hp).1) (mt List.map_eq_nil_iff.1 hne)

/-- What is read from the text are the labels. -/
theorem Kind.readLabels_labelList (hne : labels ≠ []) :
    Kind.readLabels (labelList labels) = .ok labels := by
  have hcomma : ∀ p ∈ labels.map String.toList, ',' ∉ p := fun p hp hmem =>
    ((typable_of_mem hlabels hp).2 ',' hmem).1 rfl
  have hpieces : pieces ',' (labelList labels) = labels.map String.toList :=
    pieces_joined (mt List.map_eq_nil_iff.1 hne) hcomma
  have hfilter : (labels.map String.toList).filter (fun p => !p.isEmpty) =
      labels.map String.toList := by
    refine List.filter_eq_self.2 fun p hp => ?_
    simpa using (typable_of_mem hlabels hp).1
  have hread : (labels.map String.toList).map String.ofList = labels := by
    simp
  rw [Kind.readLabels, hpieces, hfilter, hread]
  obtain ⟨l, ls, rfl⟩ := List.exists_cons_of_ne_nil hne
  rfl

end LabelList

/-! ### Calls -/

namespace Box

variable {labels labels' : List String} {column : Option (DerivedColumn Int)} {args : Arguments}
  {field : String}

/-- The box that stores labels as an equal array, with their occurrences told apart. -/
abbrev occurrences (column : Option (DerivedColumn Int)) : Box :=
  (Kind.set (.labels true) .exactly column).box

/-- Labels that are typed are stored with their codes under a free key, and refused under one that
has a constraint. -/
theorem call_labelList (form : Form) (q : Query) (hlabels : ∀ l ∈ labels, IsTypable l)
    (hne : labels ≠ []) (hfield : (occurrences column).field? args = some field) :
    let key := ((occurrences column).contextOf args field).key
    let items := SetCondition.scalars (SetCondition.canonical (Occurrence.encode labels))
    let out :=
      (occurrences column).call (form.set field (String.ofList (labelList labels))) q args
    (key ∉ q.fields.keys →
      out.result = .ok () ∧ out.query = q.insert key (.value (.list items))) ∧
    (key ∈ q.fields.keys → out.result = .error SetCondition.conflict ∧ out.query = q) := by
  intro key items out
  have hstripped : ∀ c ∈ labelList labels, Cleaning.isStripped false c = false :=
    fun c hc => isStripped_of_mem_labelList hlabels hc
  have ht : (occurrences column).typed? (form.set field (String.ofList (labelList labels))) args =
      some (field, String.ofList (labelList labels)) := by
    refine typed?_eq_some.2 ⟨hfield, Form.get?_set_self form field _, ?_⟩
    simpa using labelList_ne_nil hlabels hne
  have hspaces : Cleaning.checkSpaces (String.ofList (labelList labels)).toList = .ok () := by
    rw [String.toList_ofList]
    exact Cleaning.checkSpaces_of_not_blank fun c hc =>
      (Cleaning.isStripped_eq_false (hstripped c hc)).2.2
  have hprepare : (occurrences column).policy.prepare (String.ofList (labelList labels)).toList =
      labelList labels := by
    rw [String.toList_ofList]
    exact Cleaning.stripped_of_not_mem hstripped
  have hcompile : Kind.compileSet (.labels true) .exactly column (labelList labels)
      ((occurrences column).contextOf args field) q =
        SetCondition.setValue (Occurrence.encode labels) key q := by
    rw [Kind.compileSet, Kind.readLabels_labelList hlabels hne]
    rfl
  obtain ⟨hquery, hresult⟩ := call_of_checkSpaces (q := q) ht hspaces
  rw [hprepare] at hquery hresult
  have hwritten : out.query = (SetCondition.setValue (Occurrence.encode labels) key q).1 :=
    hquery.trans (congrArg Prod.fst hcompile)
  have hended : out.result = (SetCondition.setValue (Occurrence.encode labels) key q).2 :=
    hresult.trans (congrArg Prod.snd hcompile)
  refine ⟨fun hfree => ?_, fun hmem => ?_⟩
  · rw [SetCondition.setValue_of_not_mem _ hfree] at hwritten hended
    exact ⟨hended, hwritten⟩
  · rw [SetCondition.setValue_of_mem _ hmem] at hwritten hended
    exact ⟨hended, hwritten⟩

/-- **Labels may be typed in any order.** The same labels in another order get the same texts, in
another order. So the box that stores them makes the same query of both, or refuses both: under a
free key it stores the texts in their canonical form, and it leaves any other query as it is. -/
theorem call_reordered (h : labels.Perm labels') :
    (Occurrence.encode labels).Perm (Occurrence.encode labels') ∧
    ((∀ l ∈ labels, IsTypable l) →
      ∀ (column : Option (DerivedColumn Int)) (form form' : Form) (q : Query) (args : Arguments)
        (field : String), (occurrences column).field? args = some field →
      let key := ((occurrences column).contextOf args field).key
      let items := SetCondition.scalars (SetCondition.canonical (Occurrence.encode labels))
      let out :=
        (occurrences column).call (form.set field (String.ofList (labelList labels))) q args
      let out' :=
        (occurrences column).call (form'.set field (String.ofList (labelList labels'))) q args
      (out.query = out'.query ∧ out.result = out'.result) ∧
      (labels ≠ [] →
        (key ∉ q.fields.keys →
          out.result = .ok () ∧ out.query = q.insert key (.value (.list items))) ∧
        (key ∈ q.fields.keys → out.result = .error SetCondition.conflict ∧ out.query = q))) := by
  refine ⟨Occurrence.encode_perm h, ?_⟩
  intro hlabels column form form' q args field hfield key items out out'
  have hlabels' : ∀ l ∈ labels', IsTypable l := fun l hl => hlabels l (h.mem_iff.2 hl)
  refine ⟨?_, fun hne => call_labelList form q hlabels hne hfield⟩
  by_cases hne : labels = []
  · subst hne
    obtain rfl := h.nil_eq
    -- Nothing was typed into either form.
    have ht (f : Form) :
        (occurrences column).typed? (f.set field (String.ofList (labelList []))) args = none := by
      simp [typed?, hfield, labelList, joined]
    exact call_congr ((ht form).trans (ht form').symm)
  · have hne' : labels' ≠ [] := fun hnil => hne (hnil ▸ h).eq_nil
    obtain ⟨hfree, hmem⟩ := call_labelList form q hlabels hne hfield
    obtain ⟨hfree', hmem'⟩ := call_labelList form' q hlabels' hne' hfield
    rw [← Occurrence.canonical_encode_eq h] at hfree'
    by_cases hkey : key ∈ q.fields.keys
    · obtain ⟨hresult, hquery⟩ := hmem hkey
      obtain ⟨hresult', hquery'⟩ := hmem' hkey
      exact ⟨hquery.trans hquery'.symm, hresult.trans hresult'.symm⟩
    · obtain ⟨hresult, hquery⟩ := hfree hkey
      obtain ⟨hresult', hquery'⟩ := hfree' hkey
      exact ⟨hquery.trans hquery'.symm, hresult.trans hresult'.symm⟩

/-- Three labels, one of them twice, in two orders: in each the texts are others, and what is stored
is the same. -/
theorem call_reordered_twice :
    let labels := ["b", "a", "b"]
    let labels' := ["a", "b", "b"]
    let args : Arguments := { field := some "l", key := some "c" }
    let b := occurrences none
    let out := b.call (Form.ofList [("l", "b,a,b")]) .empty args
    let out' := b.call (Form.ofList [("l", "a,b,b")]) .empty args
    labels.Perm labels' ∧ (∀ l ∈ labels, IsTypable l) ∧ b.field? args = some "l" ∧
      (out.query = out'.query ∧ out.result = out'.result) ∧
      out.query = .single "c" (.value (.list [.string "aA", .string "bA", .string "bB"])) := by
  intro labels labels' args b out out'
  have h : labels.Perm labels' := by decide
  have hlabels : ∀ l ∈ labels, IsTypable l := by decide
  have hfield : b.field? args = some "l" := rfl
  obtain ⟨hsame, hstored⟩ :=
    (call_reordered h).2 hlabels none (Form.ofList []) (Form.ofList []) .empty args "l" hfield
  have hencode : Occurrence.encode labels = ["bA", "aA", "bB"] := by decide +kernel
  have hascending : SetCondition.IsAscending ["aA", "bA", "bB"] := by
    unfold SetCondition.IsAscending
    decide
  have hitems : SetCondition.canonical (Occurrence.encode labels) = ["aA", "bA", "bB"] := by
    rw [hencode]
    refine (SetCondition.isAscending_canonical _).eq_of_mem_iff hascending fun a => ?_
    rw [SetCondition.mem_canonical]
    simp [or_left_comm]
  obtain ⟨-, hquery⟩ := (hstored (by decide)).1 (by decide)
  rw [hitems] at hquery
  exact ⟨h, hlabels, hfield, hsame, hquery⟩

end Box

end SearchBox
