import SearchBox.Pattern.Reader
import SearchBox.Proofs.Registry

/-!
# Compiling a form is conjunction

One turn reads the texts of its own boxes and the typed modes, and writes the texts of its own boxes
only (`Turn.exists_call_congr`, `Turn.get?_call_of_ne`). On a query that is compatible with what it
makes of the empty one, it merges that (`Turn.call_update`). So a run through turns with different
boxes, whose modes stand in none of them, merges what every turn alone makes of the first form
(`Turn.exists_run`), and this is the conjunction (`compile_eq_conjunction`).
-/

namespace SearchBox.Registry

universe u

namespace Turn

/-- The fields that hold the typed modes of a turn. -/
def modeFields (t : Turn) : List String := t.entries.filterMap Entry.modeField?

/-- What the turn alone makes of a form. -/
def alone (form : Form) (t : Turn) : Outcome := t.call form .empty

variable {t : Turn} {form form' last : Form} {q d : Query}

theorem mem_modeFields {e : Entry} {m : String} (he : e ∈ t.entries) (hm : e.modeField? = some m) :
    m ∈ t.modeFields :=
  List.mem_filterMap.2 ⟨e, he, hm⟩

/-! ### One turn -/

/-- A turn makes the same query from every form with the same texts in its boxes and the same
modes. -/
theorem exists_call_congr (hnodup : t.names.Nodup)
    (hnames : ∀ name ∈ t.names, form.get? name = form'.get? name)
    (hmodes : ∀ m ∈ t.modeFields, form.get? m = form'.get? m)
    (h : t.call form q = ⟨last, d, .ok ()⟩) : ∃ last', t.call form' q = ⟨last', d, .ok ()⟩ := by
  have hside : ∀ e ∈ t.entries, e.side form = e.side form' := fun e he =>
    Entry.side_congr fun m hm => hmodes m (mem_modeFields he hm)
  have htyped : ∀ e ∈ t.entries, (e.side form).box.typed? form (e.side form).args =
      (e.side form).box.typed? form' (e.side form).args := by
    refine fun e he => Box.typed?_congr fun field hfield => hnames field ?_
    rw [Entry.field?_side, Option.some.injEq] at hfield
    exact hfield ▸ List.mem_map_of_mem he
  cases t with
  | single e =>
    have he : e ∈ (single e).entries := by simp [entries]
    simp only [call] at h ⊢
    rw [← hside e he]
    exact Box.exists_call_congr (htyped e he) h
  | pair first second =>
    have hfirst : first ∈ (pair first second).entries := by simp [entries]
    have hsecond : second ∈ (pair first second).entries := by simp [entries]
    simp only [call] at h ⊢
    rw [← hside first hfirst, ← hside second hsecond]
    refine Conjunction.exists_call_congr ?_ (htyped first hfirst) (htyped second hsecond) h
    rintro field hfield hfield'
    rw [Entry.field?_side] at hfield hfield'
    have hne : first.name ≠ second.name := by simpa [names, entries] using hnodup
    exact hne (Option.some.inj (hfield.trans hfield'.symm))

/-- A turn merges what it makes of the empty query into every query that shares no key with it. -/
theorem call_update (h : t.call form .empty = ⟨form', d, .ok ()⟩) (hq : q.Disjoint d) :
    t.call form q = ⟨form', q.update d, .ok ()⟩ := by
  cases t with
  | single e =>
    have hmerges : (e.side form).box.Merges := Entry.merges_side
    simp only [call] at h ⊢
    exact hmerges.call_update h hq
  | pair first second => exact Conjunction.call_update h q

/-- A turn that writes nothing of what another one reads does not change its success. -/
theorem alone_of_alone {t' : Turn} (hnodup : t'.names.Nodup)
    (hnames : ∀ name ∈ t'.names, name ∉ t.names) (hmodes : ∀ m ∈ t'.modeFields, m ∉ t.names)
    (hok : (t'.alone form).result = .ok ()) :
    (t'.alone (t.alone form).form).query = (t'.alone form).query ∧
      (t'.alone (t.alone form).form).result = .ok () := by
  obtain ⟨last, hlast⟩ := exists_call_congr hnodup
    (fun name hname => (get?_call_of_ne (hnames name hname)).symm)
    (fun m hm => (get?_call_of_ne (hmodes m hm)).symm) (Outcome.eq_of_result hok)
  have halone : t'.alone (t.alone form).form = ⟨last, (t'.alone form).query, .ok ()⟩ := hlast
  rw [halone]
  exact ⟨rfl, rfl⟩

/-! ### A run -/

/-- **A run merges what every turn alone makes of the form**, if no turn writes what another one
reads and their queries are compatible. -/
theorem exists_run {ts : List Turn} (hnodup : (ts.flatMap names).Nodup)
    (hmodes : ∀ t ∈ ts, ∀ m ∈ t.modeFields, m ∉ ts.flatMap names)
    (hok : ∀ t ∈ ts, (t.alone form).result = .ok ())
    (h : (q :: ts.map fun t => (t.alone form).query).Pairwise Query.Compatible) :
    ∃ form', run form q ts =
      ⟨form', q.updateAll (ts.map fun t => (t.alone form).query), .ok ()⟩ := by
  -- Each turn changes the form and the query, so both are general in the induction.
  induction ts generalizing form q with
  | nil => exact ⟨form, rfl⟩
  | cons t ts ih =>
    have ht := Outcome.eq_of_result (hok t (by simp))
    have hcall := call_update ht ((List.pairwise_cons.1 h).1 _ (by simp)).disjoint
    rw [List.flatMap_cons, List.nodup_append'] at hnodup
    obtain ⟨hnodupt, hnodupts, hdisjoint⟩ := hnodup
    -- The turns that follow find in the new form what they would find in the old one.
    have hsame : ∀ t' ∈ ts, (t'.alone (t.alone form).form).query = (t'.alone form).query ∧
        (t'.alone (t.alone form).form).result = .ok () := by
      intro t' ht'
      have hnodupt' : t'.names.Nodup := (List.nodup_flatMap.1 hnodupts).1 t' ht'
      refine alone_of_alone hnodupt' ?_ ?_ (hok t' (by simp [ht']))
      · exact fun name hname hmem => hdisjoint hmem (List.mem_flatMap.2 ⟨t', ht', hname⟩)
      · exact fun m hm hmem => hmodes t' (by simp [ht']) m hm (by simp [hmem])
    have hqueries : ts.map (fun t' => (t'.alone (t.alone form).form).query) =
        ts.map fun t' => (t'.alone form).query :=
      List.map_congr_left fun t' ht' => (hsame t' ht').1
    have hmodes' : ∀ t' ∈ ts, ∀ m ∈ t'.modeFields, m ∉ ts.flatMap names := by
      intro t' ht' m hm hmem
      exact hmodes t' (by simp [ht']) m hm (List.mem_append_right _ hmem)
    obtain ⟨last, hlast⟩ : ∃ last, run (t.alone form).form (q.update (t.alone form).query) ts =
        ⟨last, (q.update (t.alone form).query).updateAll (ts.map fun t' => (t'.alone form).query),
          .ok ()⟩ := by
      rw [← hqueries]
      refine ih hnodupts hmodes' (fun t' ht' => (hsame t' ht').2) ?_
      rw [hqueries]
      exact Query.pairwise_compatible_update h
    exact ⟨last, run_cons_eq_ok.2 ⟨_, _, hcall, hlast⟩⟩

end Turn

/-! ### The whole form -/

/-- **Compiling a form is the conjunction of its turns.** In the registry of a checked configuration
where no field holds the mode of another, let every turn succeed alone on the form, let the queries
of the turns share no keys, and let at most one of them have alternatives. Then the form compiles to
a query with the fields of the turns one after the other and with those alternatives, and a record
satisfies it exactly if it satisfies the queries of all turns. -/
theorem compile_eq_conjunction {Record : Type u} (means : String → Constraint → Record → Prop)
    {engine : SearchEngine} {c : Config} {r : Registry} (hc : c.check = .ok ())
    (hr : ofConfig engine c = .ok r)
    (hmode : ∀ f ∈ c.fields, ∀ m, f.modeField = some m → m ∉ c.names) (form : Form)
    (hok : ∀ t ∈ r.turns, (t.alone form).result = .ok ())
    (hkeys : r.turns.Pairwise fun t t' => (t.alone form).query.Disjoint (t'.alone form).query)
    (halternatives : r.turns.Pairwise fun t t' =>
      (t.alone form).query.alternatives = none ∨ (t'.alone form).query.alternatives = none) :
    ∃ form' q, r.compile form = (form', .ok q) ∧
      q.fields.entries = r.turns.flatMap (fun t => (t.alone form).query.fields.entries) ∧
      q.alternatives = r.turns.findSome? (fun t => (t.alone form).query.alternatives) ∧
      ∀ x, q.Holds means x ↔ ∀ t ∈ r.turns, (t.alone form).query.Holds means x := by
  have hvalid := valid_ofConfig hc hr
  have hnames : ∀ name ∈ r.turns.flatMap Turn.names, name ∈ c.names := by
    intro name hname
    obtain ⟨t, ht, hname⟩ := List.mem_flatMap.1 hname
    obtain ⟨e, he, rfl⟩ := List.mem_map.1 hname
    rw [← map_name_ofConfig hr]
    exact List.mem_map_of_mem (hvalid.mem_entries_of_mem_turns ht he)
  have hmodes : ∀ t ∈ r.turns, ∀ m ∈ t.modeFields, m ∉ r.turns.flatMap Turn.names := by
    intro t ht m hm hmem
    obtain ⟨e, he, hem⟩ := List.mem_filterMap.1 hm
    obtain ⟨f, hf, hfm⟩ :=
      exists_modeField_of_ofConfig hr (hvalid.mem_entries_of_mem_turns ht he) hem
    exact hmode f hf m hfm (hnames m hmem)
  have hpairwise : (Query.empty :: r.turns.map fun t => (t.alone form).query).Pairwise
      Query.Compatible := by
    refine List.pairwise_cons.2 ⟨fun d _ => ⟨Query.empty_disjoint d, .inl rfl⟩, ?_⟩
    exact List.pairwise_map.2 ((hkeys.and halternatives).imp fun ⟨hk, ha⟩ => ⟨hk, ha⟩)
  obtain ⟨form', hrun⟩ := Turn.exists_run hvalid.nodup_names_turns hmodes hok hpairwise
  refine ⟨form', _, compile_eq_ok.2 hrun, ?_, ?_, fun x => ?_⟩
  · rw [Query.entries_updateAll hpairwise, List.flatMap_map]
    rfl
  · rw [Query.alternatives_updateAll hpairwise, List.findSome?_cons, List.findSome?_map]
    rfl
  · rw [Query.holds_updateAll means x hpairwise, List.forall_mem_map]
    exact and_iff_right (Query.holds_empty means x)

/-- A pair of lists, with a truth value between the two. -/
theorem compile_eq_conjunction_pair :
    let c : Config :=
      { fields := [{ name := "a", kind := .integers }, { name := "n", kind := .truthOrUnknown },
          { name := "b", kind := .integers }]
        pairs := [⟨"a", "b"⟩] }
    let box (name : String) (kind : FieldKind) (k : Kind) : Entry :=
      { name, kind, key := name, label := none, source := .fixed k }
    let r : Registry :=
      { entries := [box "a" .integers .integers, box "n" .truthOrUnknown .truthOrUnknown,
          box "b" .integers .integers]
        pairs := [("a", box "b" .integers .integers)] }
    let form : Form := .ofList [("a", "1,2"), ("n", "yes"), ("b", "3-")]
    ofConfig Pattern.engine c = .ok r ∧ ∃ form' q, r.compile form = (form', .ok q) ∧
      q.fields.keys = ["n"] ∧ q.alternatives.map List.length = some 2 := by
  intro c box r form
  have hr : ofConfig Pattern.engine c = .ok r := rfl
  obtain ⟨form', q, hq, hfields, halternatives, -⟩ :=
    compile_eq_conjunction (fun _ _ (_ : Nat) => True) (by decide) hr (by decide) form (by decide)
      (by decide) (by decide)
  refine ⟨hr, form', q, hq, ?_, ?_⟩
  · rw [OrderedMap.keys, hfields]
    decide +kernel
  · rw [halternatives]
    decide +kernel

end SearchBox.Registry
