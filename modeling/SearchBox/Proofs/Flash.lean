import Mathlib.Data.List.Basic
import SearchBox.IntegerList
import SearchBox.Proofs.Box

/-!
# Texts of the user in flashed messages

A flashed message is markup around texts that the user may have typed. Encoded as entities, such a
text is `Inert`: it can neither open a tag nor end an attribute, and it is read back by decoding
(`Text.Entity.decode_encode`). `flash_is_inert` says that no other text of the user comes into the
message of a box that does not trust its errors.
-/

namespace SearchBox

/-! ### Inert texts -/

namespace Text.Entity

/-- The entities of the special characters. -/
def entities : List (List Char) :=
  ["&amp;".toList, "&lt;".toList, "&gt;".toList, "&quot;".toList, "&#x27;".toList]

/-- The text has no special character but ampersands, and these begin entities. -/
structure Inert (cs : List Char) : Prop where
  not_special : '<' ∉ cs ∧ '>' ∉ cs ∧ '\x22' ∉ cs ∧ '\x27' ∉ cs
  ampersand : ∀ before rest, cs = before ++ '&' :: rest → ∃ e ∈ entities, e <+: '&' :: rest

theorem inert_nil : Inert [] where
  not_special := by simp
  ampersand := by simp

theorem Inert.append {cs ds : List Char} (hcs : Inert cs) (hds : Inert ds) : Inert (cs ++ ds) where
  not_special := by simp [hcs.not_special, hds.not_special]
  ampersand before rest h := by
    rcases List.append_eq_append_iff.1 h with ⟨between, hbefore, hrest⟩ | ⟨between, hfront, hrest⟩
    · exact hds.ampersand between rest hrest
    · cases between with
      | nil => exact hds.ampersand [] rest hrest.symm
      | cons c between =>
        -- The ampersand stands in the first text, and so does its entity.
        obtain ⟨rfl, rfl⟩ := List.cons.inj hrest
        obtain ⟨e, he, hpre⟩ := hcs.ampersand before between hfront
        exact ⟨e, he, hpre.trans (List.prefix_append _ ds)⟩

/-- An entity is inert: its only ampersand is the first character. -/
theorem inert_of_mem_entities {e : List Char} (he : e ∈ entities) : Inert e := by
  have hspecial : ∀ e ∈ entities, '<' ∉ e ∧ '>' ∉ e ∧ '\x22' ∉ e ∧ '\x27' ∉ e := by decide
  have htail : ∀ e ∈ entities, '&' ∉ e.tail := by decide
  refine ⟨hspecial e he, fun before rest h => ⟨e, he, ?_⟩⟩
  cases before with
  | nil => exact h ▸ List.prefix_refl _
  | cons c before => exact absurd (by simp [h]) (htail e he)

/-- A special character becomes an entity, and any other character stands for itself. -/
theorem ofChar_mem_entities_or (c : Char) :
    ofChar c ∈ entities ∨
      ofChar c = [c] ∧ c ≠ '&' ∧ c ≠ '<' ∧ c ≠ '>' ∧ c ≠ '\x22' ∧ c ≠ '\x27' := by
  by_cases hamp : c = '&'
  · exact .inl (by subst hamp; decide)
  by_cases hlt : c = '<'
  · exact .inl (by subst hlt; decide)
  by_cases hgt : c = '>'
  · exact .inl (by subst hgt; decide)
  by_cases hquot : c = '\x22'
  · exact .inl (by subst hquot; decide)
  by_cases hapos : c = '\x27'
  · exact .inl (by subst hapos; decide)
  · refine .inr ⟨?_, hamp, hlt, hgt, hquot, hapos⟩
    rw [ofChar, if_neg hamp, if_neg hlt, if_neg hgt, if_neg hquot, if_neg hapos]

theorem inert_ofChar (c : Char) : Inert (ofChar c) := by
  rcases ofChar_mem_entities_or c with he | ⟨hself, hamp, hlt, hgt, hquot, hapos⟩
  · exact inert_of_mem_entities he
  · rw [hself]
    refine ⟨by simp [Ne.symm hlt, Ne.symm hgt, Ne.symm hquot, Ne.symm hapos], ?_⟩
    intro before rest h
    have hmem : '&' ∈ [c] := by simp [h]
    exact absurd (List.mem_singleton.1 hmem).symm hamp

theorem inert_encode (cs : List Char) : Inert (encode cs) := by
  induction cs with
  | nil => exact inert_nil
  | cons c cs ih => exact (inert_ofChar c).append ih

end Text.Entity

/-! ### Messages -/

/-- The message about a refused text, with the three texts that go into it. -/
def Form.filled (input name detail : List Char) : String :=
  "<span style='color:black'>" ++ String.ofList input ++
    "</span> is not a valid input for <span style='color:black'>" ++ String.ofList name ++
    "</span>. " ++ String.ofList detail

theorem Form.refusal_append (input name : String) (detail : List Char) :
    Form.refusal input name ++ String.ofList detail =
      Form.filled (Text.Entity.encode input.toList) (Text.Entity.encode name.toList) detail := by
  have hmiddle : "</span> is not a valid input for <span style='color:black'>" =
      "</span>" ++ (" is not a valid input for " ++ "<span style='color:black'>") := by decide
  have hend : "</span>. " = "</span>" ++ ". " := by decide
  unfold Form.refusal Form.highlighted Form.filled
  rw [hmiddle, hend]
  simp only [String.append_assoc]

namespace Box

variable (b : Box) {form : Form} {q : Query} {args : Arguments} {e : Error}

/-- The text as it stands when a call refuses it: as typed if it does not pass the check on spaces,
and prepared otherwise. -/
def refusedText (raw : List Char) : List Char :=
  match Cleaning.checkSpaces raw with
  | .error _ => raw
  | .ok () => b.policy.prepare raw

/-- The name under which a call shows the field. -/
def nameOf (args : Arguments) (field : String) : String :=
  (args.name <|> b.policy.name).getD (Form.shownName field)

theorem text_run (raw : List Char) (context : Context) (q : Query) :
    (b.run raw context q).1 = b.refusedText raw := by
  unfold run refusedText
  cases Cleaning.checkSpaces raw with
  | error e => rfl
  | ok _ => rfl

variable {b}

/-- A typed text is refused for its spaces, or else by the compile function. -/
theorem refused_cases {field raw : String} (ht : b.typed? form args = some (field, raw))
    (h : (b.call form q args).result = .error e) :
    Cleaning.checkSpaces raw.toList = .error e ∨
      Cleaning.checkSpaces raw.toList = .ok () ∧
        (b.compile (b.policy.prepare raw.toList) (b.contextOf args field) q).2 = .error e := by
  rw [call_of_typed?_eq_some ht] at h
  have hrun : (b.run raw.toList (b.contextOf args field) q).2.2 = .error e := h
  unfold run at hrun
  cases hspaces : Cleaning.checkSpaces raw.toList with
  | error e' =>
    rw [hspaces] at hrun
    exact .inl hrun
  | ok _ =>
    rw [hspaces] at hrun
    exact .inr ⟨rfl, hrun⟩

/-- **A refused text is flashed once**, as it stood when it was refused. -/
theorem flashes_call_of_refused (h : (b.call form q args).result = .error e)
    (he : e.isInput = true) :
    ∃ field raw, b.typed? form args = some (field, raw) ∧
      (b.call form q args).form.flashes = form.flashes ++
        [b.policy.refusal (String.ofList (b.refusedText raw.toList)) (b.nameOf args field) e] := by
  cases ht : b.typed? form args with
  | none =>
    rw [call_of_typed?_eq_none ht] at h
    cases h
  | some typed =>
    obtain ⟨field, raw⟩ := typed
    refine ⟨field, raw, rfl, ?_⟩
    rw [call_of_typed?_eq_some ht] at h ⊢
    have hresult : (b.run raw.toList (b.contextOf args field) q).2.2 = .error e := h
    show (b.settle form field (b.nameOf args field) (b.run raw.toList (b.contextOf args field) q).1
      (b.run raw.toList (b.contextOf args field) q).2.2).flashes = _
    rw [hresult, text_run, settle, if_pos he]
    rfl

end Box

open Text.Entity

/-- **Texts of the user are inert in a message, and can be read back from it.** The message about a
refused text has three texts in it: the input as it was refused, the name of the box, and the wording
of the error. In a box that does not trust its errors all three are encoded. The message about a
simple list of integers has the input and the name. -/
theorem flash_is_inert :
    (∀ (b : Box) (form : Form) (q : Query) (args : Arguments) (e : Error),
      b.policy.trustsErrors = false → (b.call form q args).result = .error e → e.isInput = true →
      ∃ field raw, b.typed? form args = some (field, raw) ∧
        ∃ input name detail,
          (b.call form q args).form.flashes = form.flashes ++ [Form.filled input name detail] ∧
          (Inert input ∧ decode input = b.refusedText raw.toList) ∧
          (Inert name ∧ decode name = (b.nameOf args field).toList) ∧
          (Inert detail ∧ decode detail = e.message.toList)) ∧
    ∀ (form : Form) (text : Option String) (shown : String) (e : Error),
      (IntegerList.readInto form text shown).2 = .error e →
      ∃ input name,
        (IntegerList.readInto form text shown).1.flashes =
          form.flashes ++ ["Error: " ++ Form.filled input name Span.hint.toList] ∧
        (Inert input ∧ decode input = (text.getD "").toList) ∧
        (Inert name ∧ decode name = shown.toList) := by
  have hencode (cs : List Char) : Inert (encode cs) ∧ decode (encode cs) = cs :=
    ⟨inert_encode cs, decode_encode cs⟩
  constructor
  · intro b form q args e htrust h he
    obtain ⟨field, raw, htyped, hflashes⟩ := Box.flashes_call_of_refused h he
    refine ⟨field, raw, htyped, encode (b.refusedText raw.toList),
      encode (b.nameOf args field).toList, encode e.message.toList, ?_, hencode _, hencode _,
      hencode _⟩
    rw [hflashes, Policy.refusal, htrust, if_neg Bool.false_ne_true, Form.refusal_append,
      String.toList_ofList]
  · intro form text shown e h
    refine ⟨encode (text.getD "").toList, encode shown.toList, ?_, hencode _, hencode _⟩
    unfold IntegerList.readInto at h ⊢
    cases hread : IntegerList.read? text with
    | ok ns =>
      rw [hread] at h
      cases h
    | error e' =>
      rw [← Form.refusal_append, String.ofList_toList]
      show form.flashes ++ [_] = _
      rw [String.append_assoc]

/-- Two messages with ampersands in them, about an assignment and about a list of integers. -/
theorem flash_is_inert_ampersand :
    let box := (Kind.assignments "c" 0 Reader.integer).box
    let form : Form := .ofList [("v", "a<&b=1")]
    let o := box.call form .empty { field := some "v" }
    let e : Error := .rejected "a&b does not start with c"
    (box.policy.trustsErrors = false ∧ o.result = .error e ∧ e.isInput = true) ∧
    (∃ input name detail, o.form.flashes = [Form.filled input name detail] ∧
      (Inert input ∧ decode input = "a&b=1".toList) ∧
      (Inert name ∧ decode name = "V".toList) ∧
      (Inert detail ∧ decode detail = e.message.toList)) ∧
    (IntegerList.readInto form (some "1&") "V").2 = .error (.invalidNumber "1&") ∧
    ∃ input name,
      (IntegerList.readInto form (some "1&") "V").1.flashes =
        ["Error: " ++ Form.filled input name Span.hint.toList] ∧
      (Inert input ∧ decode input = "1&".toList) ∧ (Inert name ∧ decode name = "V".toList) := by
  intro box form o e
  have hresult : o.result = .error e := rfl
  have hread : (IntegerList.readInto form (some "1&") "V").2 = .error (.invalidNumber "1&") := rfl
  refine ⟨⟨rfl, hresult, rfl⟩, ?_, hread, flash_is_inert.2 form (some "1&") "V" _ hread⟩
  obtain ⟨field, raw, htyped, hmessage⟩ :=
    flash_is_inert.1 box form .empty { field := some "v" } e rfl hresult rfl
  have htyped' : box.typed? form { field := some "v" } = some ("v", "a<&b=1") := rfl
  rw [htyped'] at htyped
  cases htyped
  exact hmessage

end SearchBox
