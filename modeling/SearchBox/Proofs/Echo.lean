import SearchBox.Pattern.Reader
import SearchBox.Proofs.Cleaning
import SearchBox.Proofs.Registry

/-!
# Compiling a form again

A form that was compiled shows the texts as they were prepared. It compiles again to the same query,
and is left as it is (`compile_of_echo`), for three reasons:

* preparing a text twice is preparing it once, and no box that echoes accepts the empty text, which
  a second call would pass over (`Box.call_of_echo`);
* a mode that can be read from a text can be read from the prepared text (`Kind.readMode_prepare`),
  so it does not matter whether its field was echoed before or after the set was compiled;
* no other box writes over what a box has echoed (`Turn.run_of_echo`).
-/

namespace SearchBox

open Text

/-! ### Kinds -/

namespace Kind

theorem compileSet_nil {items : SetItems} {mode : SetMode} {column : Option (DerivedColumn Int)}
    {context : Context} {q d : Query} : compileSet items mode column [] context q ≠ (d, .ok ()) := by
  cases items with
  | integers most =>
    have h : Span.enumerate (some most) none [] = .error (.invalidNumber "") := rfl
    simp [compileSet, h]
  | labels repeats =>
    intro h
    cases h

/-- No box that echoes accepts the empty text. -/
theorem compile_nil_ne_ok {k : Kind} (hk : k.policy.echoes = true) (context : Context)
    (q d : Query) : k.compile [] context q ≠ (d, .ok ()) := by
  intro h
  cases k with
  | set items mode column => exact compileSet_nil h
  | setByName items mode column =>
    obtain ⟨m, -, h⟩ := Write.after_eq_ok.1 h
    exact compileSet_nil h
  | integers | boundedIntegers | signedIntegers | doubles | rationals | rational | integerVector
  | rationalVector => cases h
  | _ => cases hk

/-! ### Typed modes -/

theorem readMode_eq_ok {mode : String} {m : SetMode} :
    readMode mode = .ok m ↔ SetMode.ofName? (String.ofList (trim mode.toList)) = some m := by
  unfold readMode
  split
  · rename_i m' hm'
    simp [hm']
  · rename_i hnone
    simp [hnone]

/-- A word for a mode has nothing that is cleaned away, and no blanks at its ends. -/
theorem trim_of_ofName? {word : String} {m : SetMode} (h : SetMode.ofName? word = some m) :
    trim word.toList = word.toList ∧
      ∀ c ∈ word.toList, Cleaning.isStripped false c = false ∧ c ≠ '.' := by
  unfold SetMode.ofName? at h
  split at h
  · rename_i hword
    subst hword
    exact ⟨rfl, by simp⟩
  · have hname : m.name = word := by simpa using List.find?_some h
    have hclean : m.name.toList.all (fun c => !Cleaning.isStripped false c && c != '.') = true := by
      cases m <;> decide
    subst hname
    refine ⟨by cases m <;> decide, fun c hc => ?_⟩
    simpa using List.all_eq_true.1 hclean c hc

/-- A mode that can be read can still be read when its text was prepared. -/
theorem readMode_prepare {p : Policy} (hp : p.Cleans) {mode : String} {m : SetMode}
    (h : readMode mode = .ok m) :
    readMode (String.ofList (p.prepare mode.toList)) = .ok m := by
  rw [readMode_eq_ok] at h ⊢
  obtain ⟨htrim, hclean⟩ := trim_of_ofName? h
  rw [String.toList_ofList] at htrim hclean
  rw [String.toList_ofList, hp.prepare_eq_trim hclean, htrim, h]

/-- A set box accepts a text also under another wording of its mode. -/
theorem compile_setByName_mono {items : SetItems} {mode mode' : String}
    {column : Option (DerivedColumn Int)} {text : List Char} {context : Context} {q d : Query}
    (hmode : ∀ m, readMode mode = .ok m → readMode mode' = .ok m)
    (h : (setByName items mode column).compile text context q = (d, .ok ())) :
    (setByName items mode' column).compile text context q = (d, .ok ()) := by
  obtain ⟨m, hm, hd⟩ := Write.after_eq_ok.1 h
  exact Write.after_eq_ok.2 ⟨m, hmode m hm, hd⟩

end Kind

/-! ### Boxes -/

namespace Form

/-- Every mode that can be read from a field of the first form can be read in the second one. -/
def KeepsModes (f f' : Form) : Prop :=
  ∀ field m, Kind.readMode ((f.get? field).getD "") = .ok m →
    Kind.readMode ((f'.get? field).getD "") = .ok m

theorem KeepsModes.refl (f : Form) : f.KeepsModes f := fun _ _ h => h

theorem KeepsModes.trans {f f' f'' : Form} (h : f.KeepsModes f') (h' : f'.KeepsModes f'') :
    f.KeepsModes f'' :=
  fun field m hm => h' field m (h field m hm)

end Form

namespace Box

variable {b : Box} {form form' : Form} {q q' : Query} {args : Arguments}

/-- The box drops blanks, and accepts no empty text if it echoes. -/
structure EchoesText (b : Box) : Prop where
  cleans : b.policy.Cleans
  compile_nil : b.policy.echoes = true → ∀ context q d, b.compile [] context q ≠ (d, .ok ())

theorem echoesText_of_kind (k : Kind) : k.box.EchoesText :=
  ⟨k.cleans_policy, fun hk => Kind.compile_nil_ne_ok hk⟩

theorem get?_echo_of_echoes {field : String} {text : List Char} (h : b.policy.echoes = true) :
    (b.echo form field text).get? field = some (String.ofList text) := by
  rw [echo, if_pos h, Form.get?_set_self]

theorem echo_of_not_echoes {field : String} {text : List Char} (h : b.policy.echoes = false) :
    b.echo form field text = form := by
  rw [echo, if_neg (by simp [h])]

/-- **A box compiles what it has echoed as it compiled the text before,** and then leaves the form
as it is. Only the text of its own field has to stand in the second form. -/
theorem call_of_echo (hb : b.EchoesText) (h : b.call form q args = ⟨form', q', .ok ()⟩)
    {last : Form}
    (hlast : ∀ field, b.field? args = some field → last.get? field = form'.get? field) :
    b.call last q args = ⟨last, q', .ok ()⟩ := by
  rcases call_eq_ok.1 h with ⟨ht, rfl, rfl⟩ | ⟨field, raw, ht, hspaces, hcompile, rfl⟩
  · exact call_eq_ok.2 (.inl ⟨(typed?_congr hlast).trans ht, rfl, rfl⟩)
  obtain ⟨hfield, hraw, hempty⟩ := typed?_eq_some.1 ht
  have hget := hlast field hfield
  cases hechoes : b.policy.echoes with
  | false =>
    rw [echo_of_not_echoes hechoes] at hget
    refine call_eq_ok.2 (.inr ⟨field, raw, ?_, hspaces, hcompile, ?_⟩)
    · exact typed?_eq_some.2 ⟨hfield, hget.trans hraw, hempty⟩
    · rw [echo_of_not_echoes hechoes]
  | true =>
    rw [get?_echo_of_echoes hechoes] at hget
    -- The second call would pass over an empty text, but no box that echoes accepts one.
    have hprepared : b.policy.prepare raw.toList ≠ [] := by
      intro hnil
      rw [hnil] at hcompile
      exact hb.compile_nil hechoes _ _ _ hcompile
    refine call_eq_ok.2 (.inr ⟨field, String.ofList (b.policy.prepare raw.toList), ?_, ?_, ?_, ?_⟩)
    · exact typed?_eq_some.2 ⟨hfield, hget, by simpa using hprepared⟩
    · rw [String.toList_ofList]
      exact hb.cleans.checkSpaces_prepare raw.toList
    · rw [String.toList_ofList, hb.cleans.prepare_prepare]
      exact hcompile
    · rw [String.toList_ofList, hb.cleans.prepare_prepare, echo, if_pos hechoes,
        Form.set_of_get?_eq_some hget]

/-- The text in an echoing box has no angle brackets and no blanks after a call that succeeds. -/
theorem isStripped_of_echo (hb : b.EchoesText) (hechoes : b.policy.echoes = true)
    (h : b.call form q args = ⟨form', q', .ok ()⟩) {field text : String}
    (hfield : b.field? args = some field) (htext : form'.get? field = some text) {c : Char}
    (hc : c ∈ text.toList) : Cleaning.isStripped false c = false := by
  rcases call_eq_ok.1 h with ⟨ht, rfl, rfl⟩ | ⟨field', raw, ht, -, -, rfl⟩
  · have hempty : text.isEmpty = true := by
      by_contra hne
      rw [typed?_eq_some.2 ⟨hfield, htext, Bool.eq_false_iff.2 hne⟩] at ht
      cases ht
    rw [String.isEmpty_iff.1 hempty] at hc
    cases hc
  · cases (typed?_eq_some.1 ht).1.symm.trans hfield
    rw [get?_echo_of_echoes hechoes, Option.some.injEq] at htext
    rw [← htext, String.toList_ofList] at hc
    exact hb.cleans.isStripped_of_mem_prepare hc

/-- A call that succeeds keeps the modes that can be read in the form. -/
theorem keepsModes_of_call (hb : b.EchoesText) (h : b.call form q args = ⟨form', q', .ok ()⟩) :
    form.KeepsModes form' := by
  rcases call_eq_ok.1 h with ⟨-, rfl, -⟩ | ⟨field, raw, ht, -, -, rfl⟩
  · exact .refl _
  intro other m hm
  unfold echo
  split
  · rw [Form.get?_set]
    split
    · rename_i hother
      rw [hother, (typed?_eq_some.1 ht).2.1, Option.getD_some] at hm
      exact Kind.readMode_prepare hb.cleans hm
    · exact hm
  · exact hm

/-- A second box with the same policy does the same if it accepts what the first one does. -/
theorem call_of_compile (h : b.call form q args = ⟨form', q', .ok ()⟩) {b' : Box}
    (hpolicy : b'.policy = b.policy)
    (hcompile : ∀ text context d, b.compile text context q = (d, .ok ()) →
      b'.compile text context q = (d, .ok ())) :
    b'.call form q args = ⟨form', q', .ok ()⟩ := by
  obtain ⟨p, compile⟩ := b
  obtain ⟨p', compile'⟩ := b'
  cases hpolicy
  rcases call_eq_ok.1 h with ⟨ht, rfl, rfl⟩ | ⟨field, raw, ht, hspaces, hd, hform⟩
  · exact call_eq_ok.2 (.inl ⟨ht, rfl, rfl⟩)
  · exact call_eq_ok.2 (.inr ⟨field, raw, ht, hspaces, hcompile _ _ _ hd, hform⟩)

end Box

/-! ### Entries -/

namespace Entry

variable {e : Entry} {form form' last start : Form} {q q' : Query}

/-- The policy of a box does not depend on the form. -/
theorem policy_kindIn (e : Entry) (form form' : Form) :
    (e.kindIn form).policy = (e.kindIn form').policy := by
  unfold kindIn
  split <;> rfl

theorem echoesText_side : (e.side form).box.EchoesText :=
  Box.echoesText_of_kind (e.kindIn form)

/-- What a box accepts it accepts in a second form with the same modes. -/
theorem call_of_keepsModes (hmodes : start.KeepsModes last)
    (h : (e.side start).box.call form q (e.side start).args = ⟨form', q', .ok ()⟩) :
    (e.side last).box.call form q (e.side last).args = ⟨form', q', .ok ()⟩ := by
  unfold side at h ⊢
  cases hsource : e.source with
  | fixed k =>
    have hkind : ∀ f, e.kindIn f = k := fun f => by rw [kindIn, hsource]
    rw [hkind] at h ⊢
    exact h
  | setByField items column m =>
    have hkind : ∀ f, e.kindIn f = .setByName items ((f.get? m).getD "") column := fun f => by
      rw [kindIn, hsource]
    rw [hkind] at h ⊢
    refine Box.call_of_compile h rfl fun text context d hd => ?_
    simp only [Kind.box] at hd ⊢
    exact Kind.compile_setByName_mono (hmodes m) hd

/-- The form stays as it is when the text of the box is compiled. -/
def IsSettled (e : Entry) (form : Form) : Prop :=
  ∃ q q', (e.side form).box.call form q (e.side form).args = ⟨form, q', .ok ()⟩

/-- **A box compiles again what it has echoed,** also when its mode is read from the second form. -/
theorem call_of_echo (hmodes : start.KeepsModes last)
    (h : (e.side start).box.call form q (e.side start).args = ⟨form', q', .ok ()⟩)
    (hlast : last.get? e.name = form'.get? e.name) :
    (e.side last).box.call last q (e.side last).args = ⟨last, q', .ok ()⟩ := by
  refine call_of_keepsModes hmodes (Box.call_of_echo echoesText_side h ?_)
  intro field hfield
  rw [field?_side, Option.some.injEq] at hfield
  rw [← hfield, hlast]

end Entry

namespace Registry

namespace Turn

variable {t : Turn} {form form' last : Form} {q q' : Query}

/-! ### Turns -/

/-- A turn that succeeds keeps the modes that can be read in the form. -/
theorem keepsModes_of_call (h : t.call form q = ⟨form', q', .ok ()⟩) : form.KeepsModes form' := by
  cases t with
  | single e =>
    simp only [call] at h
    exact Box.keepsModes_of_call Entry.echoesText_side h
  | pair first second =>
    obtain ⟨mid, l, r, cs, hleft, hright, -, -⟩ := Conjunction.call_eq_ok.1 h
    exact (Box.keepsModes_of_call Entry.echoesText_side hleft).trans
      (Box.keepsModes_of_call Entry.echoesText_side hright)

/-- **A turn does again what it did** in any form with its texts and the same modes, and all of its
boxes are settled there. -/
theorem call_of_echo (hnodup : t.names.Nodup) (hmodes : form.KeepsModes last)
    (h : t.call form q = ⟨form', q', .ok ()⟩)
    (hlast : ∀ name ∈ t.names, last.get? name = form'.get? name) :
    t.call last q = ⟨last, q', .ok ()⟩ ∧ ∀ e ∈ t.entries, e.IsSettled last := by
  cases t with
  | single e =>
    have hcall := Entry.call_of_echo hmodes h (hlast e.name (by simp [names, entries]))
    refine ⟨hcall, fun e' he' => ?_⟩
    rw [entries, List.mem_singleton] at he'
    exact he' ▸ ⟨q, q', hcall⟩
  | pair first second =>
    obtain ⟨mid, l, r, cs, hleft, hright, hcombine, rfl⟩ := Conjunction.call_eq_ok.1 h
    have hne : first.name ≠ second.name := by simpa [names, entries] using hnodup
    -- The second box does not write over what the first one has echoed.
    have hmid : form'.get? first.name = mid.get? first.name := by
      have hframe : ((second.side form).box.call mid .empty (second.side form).args).form.get?
          first.name = mid.get? first.name :=
        Box.get?_call_of_ne fun hfield => hne (Option.some.inj hfield).symm
      rwa [hright] at hframe
    have hfirst := Entry.call_of_echo hmodes hleft
      ((hlast first.name (by simp [names, entries])).trans hmid)
    have hsecond := Entry.call_of_echo hmodes hright (hlast second.name (by simp [names, entries]))
    refine ⟨Conjunction.call_eq_ok.2 ⟨last, l, r, cs, hfirst, hsecond, hcombine, rfl⟩, ?_⟩
    intro e he
    simp only [entries, List.mem_cons, List.not_mem_nil, or_false] at he
    rcases he with rfl | rfl
    · exact ⟨.empty, l, hfirst⟩
    · exact ⟨.empty, r, hsecond⟩

/-- **A run does again what it did** in the form that it leaves, which keeps the modes of the first
form, and all of its boxes are settled there. -/
theorem run_of_echo {ts : List Turn} (hnodup : (ts.flatMap names).Nodup)
    (h : run form q ts = ⟨last, q', .ok ()⟩) :
    form.KeepsModes last ∧ run last q ts = ⟨last, q', .ok ()⟩ ∧
      ∀ t ∈ ts, ∀ e ∈ t.entries, e.IsSettled last := by
  induction ts generalizing form q with
  | nil =>
    cases h
    exact ⟨.refl _, rfl, by simp⟩
  | cons t ts ih =>
    obtain ⟨mid, d, hcall, hrest⟩ := run_cons_eq_ok.1 h
    rw [List.flatMap_cons, List.nodup_append'] at hnodup
    obtain ⟨hnodupt, hnodupts, hdisjoint⟩ := hnodup
    obtain ⟨hmodes, hagain, hsettled⟩ := ih hnodupts hrest
    -- What the turn has written still stands in the last form, as no later turn has its boxes.
    have hlast : ∀ name ∈ t.names, last.get? name = mid.get? name := fun name hname =>
      get?_run_of_ne (fun hmem => hdisjoint hname hmem) hrest
    have hkeeps := (keepsModes_of_call hcall).trans hmodes
    obtain ⟨hcall', hsettled'⟩ := call_of_echo hnodupt hkeeps hcall hlast
    exact ⟨hkeeps, run_cons_eq_ok.2 ⟨last, d, hcall', hagain⟩,
      List.forall_mem_cons.2 ⟨hsettled', hsettled⟩⟩

end Turn

/-! ### The whole form -/

/-- **The echoed form is a fixed point.** If a form compiles in the registry of a checked
configuration, then the form that this leaves compiles to the same query and is left as it is. The
texts of the boxes that echo hold no angle brackets and no blanks. -/
theorem compile_of_echo {engine : SearchEngine} {c : Config} {r : Registry}
    (hc : c.check = .ok ()) (hr : ofConfig engine c = .ok r) {form form' : Form} {q : Query}
    (h : r.compile form = (form', .ok q)) :
    r.compile form' = (form', .ok q) ∧
      ∀ e ∈ r.entries, (e.kindIn form).policy.echoes = true →
        ∀ text, form'.get? e.name = some text →
          ∀ ch ∈ text.toList, ch ≠ '<' ∧ ch ≠ '>' ∧ isBlank ch = false := by
  have hvalid := valid_ofConfig hc hr
  obtain ⟨-, hagain, hsettled⟩ := Turn.run_of_echo hvalid.nodup_names_turns (compile_eq_ok.1 h)
  refine ⟨compile_eq_ok.2 hagain, fun e he hechoes text htext ch hch => ?_⟩
  obtain ⟨t, ht, het⟩ := hvalid.exists_mem_turns he
  obtain ⟨d, d', hcall⟩ := hsettled t ht e het
  rw [e.policy_kindIn form form'] at hechoes
  exact Cleaning.isStripped_eq_false
    (Box.isStripped_of_echo Entry.echoesText_side hechoes hcall Entry.field?_side htext hch)

/-- An interval with dots and blanks, and a set whose mode stands in an echoing box. -/
theorem compile_of_echo_set :
    let c : Config :=
      { fields := [{ name := "n", kind := .integers },
          { name := "s", kind := .set, items := .labels, modeField := some "m" },
          { name := "m", kind := .set, items := .labels, mode := some "include" }] }
    let box (name : String) (kind : FieldKind) (source : Source) : Entry :=
      { name, kind, key := name, label := none, source }
    let r : Registry :=
      { entries := [box "n" .integers (.fixed .integers),
          box "s" .set (.setByField (.labels false) none "m"),
          box "m" .set (.fixed (.set (.labels false) .containsAll none))]
        pairs := [] }
    let form : Form := .ofList [("n", " 2 .. 5"), ("s", "a, b"), ("m", "exclude ")]
    ofConfig Pattern.engine c = .ok r ∧
      ∃ form' q, r.compile form = (form', .ok q) ∧ r.compile form' = (form', .ok q) ∧
        form'.get? "n" = some "2-5" ∧ form'.get? "m" = some "exclude" := by
  intro c box r form
  have hr : ofConfig Pattern.engine c = .ok r := rfl
  have hc : c.check = .ok () := by decide
  have hok : (r.compile form).2.isOk = true := by decide +kernel
  have hn : (r.compile form).1.get? "n" = some "2-5" := by decide +kernel
  have hm : (r.compile form).1.get? "m" = some "exclude" := by decide +kernel
  rcases hcompile : r.compile form with ⟨form', e | q⟩
  · rw [hcompile] at hok
    cases hok
  · rw [hcompile] at hn hm
    exact ⟨hr, form', q, rfl, (compile_of_echo hc hr hcompile).1, hn, hm⟩

end Registry

end SearchBox
