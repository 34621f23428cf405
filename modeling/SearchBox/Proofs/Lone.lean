import SearchBox.Proofs.Registry

/-!
# Forms with a single text

If a form `HasOnly` the text of one field, then it compiles to what the box of that field alone makes
of it (`compile_of_hasOnly`): boxes without a text do nothing, a box that asks for nothing leaves its
partner's query as it is, and no box brings a text into the form.
-/

namespace SearchBox

/-- What becomes of an outcome in the end: its form, and its query unless there is an error. -/
def Outcome.answer (o : Outcome) : Form × Except Error Query :=
  (o.form, o.result.map fun () => o.query)

theorem Outcome.answer_of_error {o : Outcome} {e : Error} (h : o.result = .error e) :
    o.answer = (o.form, .error e) := by
  rw [answer, h]
  rfl

theorem Outcome.answer_of_ok {o : Outcome} (h : o.result = .ok ()) :
    o.answer = (o.form, .ok o.query) := by
  rw [answer, h]
  rfl

/-- Only the given field has a text that is not empty. -/
def Form.HasOnly (form : Form) (field : String) : Prop :=
  ∀ name text, form.get? name = some text → text.isEmpty = false → name = field

/-- The form that was made of one text has no other. -/
theorem Form.hasOnly_ofList (field text : String) : (ofList [(field, text)]).HasOnly field := by
  intro name raw hraw _
  have hlookup : (ofList [(field, text)]).get? name = if name = field then some text else none :=
    OrderedMap.get?_insert .empty field name text
  rw [hlookup] at hraw
  by_contra hne
  rw [if_neg hne] at hraw
  cases hraw

/-! ### Boxes without a text -/

namespace Box

variable {b : Box} {form : Form} {q : Query} {args : Arguments} {field : String}

/-- A box of another field does nothing. -/
theorem call_of_hasOnly (h : form.HasOnly field) (hne : b.field? args ≠ some field) :
    b.call form q args = ⟨form, q, .ok ()⟩ := by
  cases ht : b.typed? form args with
  | none => exact call_of_typed?_eq_none ht
  | some typed =>
    obtain ⟨other, raw⟩ := typed
    obtain ⟨hfield, hraw, hempty⟩ := typed?_eq_some.1 ht
    have heq : other = field := h other raw hraw hempty
    exact absurd (heq ▸ hfield) hne

/-- The box of the field leaves no text in any other. -/
theorem hasOnly_call (h : form.HasOnly field) (hfield : b.field? args = some field) :
    (b.call form q args).form.HasOnly field := by
  intro name text htext hempty
  by_contra hne
  have hother : b.field? args ≠ some name := by
    rw [hfield]
    exact fun heq => hne (Option.some.inj heq).symm
  rw [get?_call_of_ne hother] at htext
  exact hne (h name text htext hempty)

end Box

/-! ### Pairs -/

namespace Conjunction

theorem absorb_choices {q : Query} (hq : q.Simple) : absorb .empty q.choices = q := by
  cases hq with
  | fields h =>
    rw [Query.choices, h]
    exact Query.empty_update q
  | choice hlen _ => exact absorb_of_two_le hlen

/-- A query is left as it is by one that asks for nothing on the right. -/
theorem exists_combine_empty {q : Query} (hq : q.Simple) :
    ∃ cs, combine q .empty = .ok cs ∧ absorb .empty cs = q := by
  rw [combine_of_simple hq Query.simple_empty]
  by_cases hempty : q.isEmpty = true
  · rw [Query.eq_empty_of_isEmpty hempty]
    exact ⟨[], rfl, rfl⟩
  · rw [if_neg hempty]
    exact ⟨q.choices, rfl, absorb_choices hq⟩

/-- A query is left as it is by one that asks for nothing on the left. -/
theorem exists_empty_combine {q : Query} (hq : q.Simple) :
    ∃ cs, combine .empty q = .ok cs ∧ absorb .empty cs = q := by
  rw [combine_of_simple Query.simple_empty hq]
  by_cases hempty : q.isEmpty = true
  · rw [Query.eq_empty_of_isEmpty hempty]
    exact ⟨[], rfl, rfl⟩
  · have hnothing : Query.empty.isEmpty = true := rfl
    rw [if_pos hnothing, if_neg hempty]
    exact ⟨q.choices, rfl, absorb_choices hq⟩

variable {form : Form} {first second : Side} {field : String}

/-- A pair whose first box has the only text answers like that box. -/
theorem answer_call_of_first (hfirst : first.box.field? first.args = some field)
    (hsecond : second.box.field? second.args ≠ some field) (hmerges : first.box.Merges)
    (h : form.HasOnly field) :
    (call form .empty first second).answer = (first.box.call form .empty first.args).answer := by
  have honly := first.box.hasOnly_call (q := .empty) h hfirst
  have hright := second.box.call_of_hasOnly (q := .empty) honly hsecond
  cases hleft : (first.box.call form .empty first.args).result with
  | error e =>
    rw [Outcome.answer_of_error hleft]
    simp only [call, hleft]
    rfl
  | ok _ =>
    obtain ⟨cs, hcombine, habsorb⟩ :=
      exists_combine_empty (hmerges.simple (Outcome.eq_of_result hleft))
    rw [Outcome.answer_of_ok hleft]
    simp only [call, hleft, hright, hcombine, habsorb]
    rfl

/-- A pair whose second box has the only text answers like that box. -/
theorem answer_call_of_second (hfirst : first.box.field? first.args ≠ some field)
    (hmerges : second.box.Merges) (h : form.HasOnly field) :
    (call form .empty first second).answer = (second.box.call form .empty second.args).answer := by
  have hleft := first.box.call_of_hasOnly (q := .empty) h hfirst
  cases hright : (second.box.call form .empty second.args).result with
  | error e =>
    rw [Outcome.answer_of_error hright]
    simp only [call, hleft, hright]
    rfl
  | ok _ =>
    obtain ⟨cs, hcombine, habsorb⟩ :=
      exists_empty_combine (hmerges.simple (Outcome.eq_of_result hright))
    rw [Outcome.answer_of_ok hright]
    simp only [call, hleft, hright, hcombine, habsorb]
    rfl

end Conjunction

/-! ### Turns -/

namespace Registry

namespace Turn

variable {t : Turn} {e : Entry} {form : Form} {field : String}

/-- A turn without the box of the field does nothing. -/
theorem call_of_hasOnly (h : form.HasOnly field) (hfield : field ∉ t.names) (q : Query) :
    t.call form q = ⟨form, q, .ok ()⟩ := by
  have hbox : ∀ e ∈ t.entries, ∀ q',
      (e.side form).box.call form q' (e.side form).args = ⟨form, q', .ok ()⟩ := by
    intro e he q'
    refine Box.call_of_hasOnly h ?_
    rw [Entry.field?_side]
    intro heq
    exact hfield (List.mem_map.2 ⟨e, he, Option.some.inj heq⟩)
  cases t with
  | single e => exact hbox e (by simp [entries]) q
  | pair first second =>
    have hfirst := hbox first (by simp [entries]) .empty
    have hsecond := hbox second (by simp [entries]) .empty
    simp only [call, Conjunction.call, hfirst, hsecond]
    rfl

/-- The turn of the box answers like the box alone. -/
theorem answer_call_of_hasOnly (hnodup : t.names.Nodup) (he : e ∈ t.entries)
    (h : form.HasOnly e.name) :
    (t.call form .empty).answer =
      ((e.side form).box.call form .empty (e.side form).args).answer := by
  cases t with
  | single e' =>
    rw [List.mem_singleton.1 he]
    rfl
  | pair first second =>
    have hne : first.name ≠ second.name := by simpa [names, entries] using hnodup
    simp only [entries, List.mem_cons, List.not_mem_nil, or_false] at he
    rcases he with rfl | rfl
    · refine Conjunction.answer_call_of_first Entry.field?_side ?_ Entry.merges_side h
      rw [Entry.field?_side]
      exact fun heq => hne (Option.some.inj heq).symm
    · refine Conjunction.answer_call_of_second ?_ Entry.merges_side h
      rw [Entry.field?_side]
      exact fun heq => hne (Option.some.inj heq)

/-- A run without the box of the field does nothing. -/
theorem run_of_hasOnly {ts : List Turn} (h : form.HasOnly field)
    (hfield : field ∉ ts.flatMap names) (q : Query) : run form q ts = ⟨form, q, .ok ()⟩ := by
  induction ts with
  | nil => rfl
  | cons t ts ih =>
    rw [List.flatMap_cons, List.mem_append, not_or] at hfield
    have ht := call_of_hasOnly h hfield.1 q
    rw [run_cons_of_ok ts (congrArg Outcome.result ht), ht]
    exact ih hfield.2

/-- A run answers like the box of the field alone: the turns before it leave the empty query, and
those after it leave what it has made. -/
theorem answer_run_of_hasOnly {ts : List Turn} (hnodup : (ts.flatMap names).Nodup) (ht : t ∈ ts)
    (he : e ∈ t.entries) (h : form.HasOnly e.name) :
    (run form .empty ts).answer =
      ((e.side form).box.call form .empty (e.side form).args).answer := by
  have hname : e.name ∈ t.names := List.mem_map_of_mem he
  induction ts with
  | nil => cases ht
  | cons t' ts ih =>
    rw [List.flatMap_cons, List.nodup_append'] at hnodup
    obtain ⟨hnodupt, hnodupts, hdisjoint⟩ := hnodup
    -- No other turn has the box, so the query is empty until its turn and stays as it is afterwards.
    rcases List.mem_cons.1 ht with rfl | hts
    · have hturn := answer_call_of_hasOnly hnodupt he h
      cases hresult : (t.call form .empty).result with
      | error e' => rw [run_cons_of_error ts hresult, hturn]
      | ok _ =>
        have hform : (t.call form .empty).form =
            ((e.side form).box.call form .empty (e.side form).args).form :=
          congrArg Prod.fst hturn
        have honly : (t.call form .empty).form.HasOnly e.name := by
          rw [hform]
          exact Box.hasOnly_call h Entry.field?_side
        rw [run_cons_of_ok ts hresult, run_of_hasOnly honly (hdisjoint hname), ← hturn,
          Outcome.answer_of_ok hresult]
        rfl
    · have hfield : e.name ∉ t'.names := fun hmem =>
        hdisjoint hmem (List.mem_flatMap.2 ⟨t, hts, hname⟩)
      have ht' := call_of_hasOnly h hfield .empty
      rw [run_cons_of_ok ts (congrArg Outcome.result ht'), ht']
      exact ih hnodupts hts

end Turn

/-- **A form with a single text compiles to what the box of that text makes of it.** -/
theorem compile_of_hasOnly {r : Registry} (hr : r.Valid) {e : Entry} (he : e ∈ r.entries)
    {form : Form} (h : form.HasOnly e.name) :
    r.compile form = ((e.side form).box.call form .empty (e.side form).args).answer := by
  obtain ⟨t, ht, het⟩ := hr.exists_mem_turns he
  rw [compile_eq_run]
  exact Turn.answer_run_of_hasOnly hr.nodup_names_turns ht het h

end Registry

end SearchBox
