import Mathlib.Data.List.Nodup
import Mathlib.Data.List.Pairwise
import SearchBox.Proofs.Config
import SearchBox.Proofs.Conjunction
import SearchBox.Registry

/-!
# Registries and their turns

A registry that stems from a checked configuration is `Valid`: its boxes have different names, and
each is in at most one pair. Compiling takes such a registry in turns, one for each box outside of
pairs and one for each pair (`compileEntries_eq_run`). Every box has its turn (`exists_mem_turns`),
and no two turns have a box in common (`nodup_names_turns`).
-/

namespace SearchBox

/-! ### Entries -/

namespace Entry

/-- The field that holds the mode of the box, if the mode is typed. -/
def modeField? (e : Entry) : Option String :=
  match e.source with
  | .fixed _ => none
  | .setByField _ _ modeField => some modeField

variable {e : Entry} {form form' : Form}

/-- Of the form, the kind of a box depends on the field with its mode only. -/
theorem kindIn_congr (h : ∀ m, e.modeField? = some m → form.get? m = form'.get? m) :
    e.kindIn form = e.kindIn form' := by
  unfold kindIn
  unfold modeField? at h
  split
  · rfl
  · rename_i items column m hsource
    rw [h m (by rw [hsource])]

theorem side_congr (h : ∀ m, e.modeField? = some m → form.get? m = form'.get? m) :
    e.side form = e.side form' := by
  unfold side
  rw [kindIn_congr h]

@[simp] theorem field?_side : (e.side form).box.field? (e.side form).args = some e.name := rfl

theorem merges_side : (e.side form).box.Merges :=
  Box.merges_of_kind (e.kindIn form).policy (e.kindIn form)

end Entry

namespace Registry

/-! ### Turns -/

/-- What is compiled in one turn: a box alone, or the two boxes of a pair. -/
inductive Turn
  | single (e : Entry)
  | pair (first second : Entry)

namespace Turn

/-- The boxes of a turn. -/
def entries : Turn → List Entry
  | single e => [e]
  | pair first second => [first, second]

/-- The names of the boxes of a turn. -/
def names (t : Turn) : List String := t.entries.map Entry.name

/-- Compiles the boxes of a turn into a query. -/
def call (form : Form) (q : Query) : Turn → Outcome
  | single e => (e.side form).box.call form q (e.side form).args
  | pair first second => Conjunction.call form q (first.side form) (second.side form)

/-- Takes turns one after the other, up to the first error. -/
def run (form : Form) (q : Query) : List Turn → Outcome
  | [] => ⟨form, q, .ok ()⟩
  | t :: ts =>
    let o := t.call form q
    match o.result with
    | .ok () => run o.form o.query ts
    | .error err => ⟨o.form, o.query, .error err⟩

theorem run_cons_eq_ok {t : Turn} {ts : List Turn} {form form' : Form} {q q' : Query} :
    run form q (t :: ts) = ⟨form', q', .ok ()⟩ ↔
      ∃ mid d, t.call form q = ⟨mid, d, .ok ()⟩ ∧ run mid d ts = ⟨form', q', .ok ()⟩ := by
  rw [run]
  rcases t.call form q with ⟨mid, d, e | _⟩
  · simp
  · constructor
    · intro h
      exact ⟨mid, d, rfl, h⟩
    · rintro ⟨mid', d', hcall, h⟩
      cases hcall
      exact h

theorem run_cons_of_ok {t : Turn} {form : Form} {q : Query} (ts : List Turn)
    (h : (t.call form q).result = .ok ()) :
    run form q (t :: ts) = run (t.call form q).form (t.call form q).query ts := by
  simp only [run, h]

theorem run_cons_of_error {t : Turn} {form : Form} {q : Query} {e : Error} (ts : List Turn)
    (h : (t.call form q).result = .error e) : run form q (t :: ts) = t.call form q := by
  simp only [run, h]
  rw [← h]

/-- A turn leaves the texts of all boxes but its own as they are. -/
theorem get?_call_of_ne {t : Turn} {form : Form} {q : Query} {other : String}
    (h : other ∉ t.names) : (t.call form q).form.get? other = form.get? other := by
  have hne : ∀ e ∈ t.entries, (e.side form).box.field? (e.side form).args ≠ some other := by
    intro e he heq
    rw [Entry.field?_side, Option.some.injEq] at heq
    exact h (heq ▸ List.mem_map_of_mem he)
  cases t with
  | single e => exact Box.get?_call_of_ne (hne e (by simp [entries]))
  | pair first second =>
    have hfirst := hne first (by simp [entries])
    have hsecond := hne second (by simp [entries])
    exact Conjunction.get?_call_of_ne hfirst hsecond

/-- A run leaves the texts of all boxes but those of its turns as they are, even if it fails. -/
theorem get?_form_run {ts : List Turn} {form : Form} {q : Query} {other : String}
    (h : other ∉ ts.flatMap names) : (run form q ts).form.get? other = form.get? other := by
  induction ts generalizing form q with
  | nil => rfl
  | cons t ts ih =>
    rw [List.flatMap_cons, List.mem_append, not_or] at h
    have hturn : (t.call form q).form.get? other = form.get? other := get?_call_of_ne h.1
    cases hresult : (t.call form q).result with
    | error e => rwa [run_cons_of_error ts hresult]
    | ok _ => rw [run_cons_of_ok ts hresult, ih h.2, hturn]

theorem get?_run_of_ne {ts : List Turn} {form form' : Form} {q q' : Query} {other : String}
    (h : other ∉ ts.flatMap names) (hrun : run form q ts = ⟨form', q', .ok ()⟩) :
    form'.get? other = form.get? other := by
  have hform : (run form q ts).form.get? other = form.get? other := get?_form_run h
  rwa [hrun] at hform

end Turn

/-- The turn of a box that is not the second one of a pair. -/
def turnOf (r : Registry) (e : Entry) : Turn :=
  match r.partner? e.name with
  | none => .single e
  | some partner => .pair e partner

/-- The turns of a registry in their order, each at the place of its first box. -/
def turns (r : Registry) : List Turn :=
  (r.entries.filter fun e => !r.isSecond e.name).map r.turnOf

variable {r : Registry}

theorem compileEntry_of_isSecond {e : Entry} (h : r.isSecond e.name = true) (form : Form)
    (q : Query) : r.compileEntry form q e = ⟨form, q, .ok ()⟩ := by
  rw [compileEntry, if_pos h]

theorem compileEntry_of_not_isSecond {e : Entry} (h : r.isSecond e.name = false) (form : Form)
    (q : Query) : r.compileEntry form q e = (r.turnOf e).call form q := by
  rw [compileEntry, if_neg (by simp [h]), turnOf]
  cases r.partner? e.name <;> rfl

/-- Compiling takes the turns of the registry. -/
theorem compileEntries_eq_run (form : Form) (q : Query) (es : List Entry) :
    r.compileEntries form q es =
      Turn.run form q ((es.filter fun e => !r.isSecond e.name).map r.turnOf) := by
  induction es generalizing form q with
  | nil => rfl
  | cons e es ih =>
    cases h : r.isSecond e.name with
    | true => simp [compileEntries, compileEntry_of_isSecond h, h, ih]
    | false =>
      simp only [compileEntries, compileEntry_of_not_isSecond h, h, Bool.not_false,
        List.filter_cons_of_pos, List.map_cons, Turn.run]
      rcases (r.turnOf e).call form q with ⟨mid, d, err | _⟩
      · rfl
      · exact ih mid d

theorem compile_eq_run (r : Registry) (form : Form) :
    r.compile form = ((Turn.run form .empty r.turns).form,
      (Turn.run form .empty r.turns).result.map fun () =>
        (Turn.run form .empty r.turns).query) := by
  rw [compile, compileEntries_eq_run]
  rfl

theorem compile_eq_ok {form form' : Form} {q : Query} :
    r.compile form = (form', .ok q) ↔ Turn.run form .empty r.turns = ⟨form', q, .ok ()⟩ := by
  rw [compile_eq_run]
  rcases Turn.run form .empty r.turns with ⟨last, d, err | _⟩
  · simp [Except.map]
  · simp [Except.map]

/-! ### Valid registries -/

/-- The boxes have different names, and a pair is made of two of them that are in no other pair. -/
structure Valid (r : Registry) : Prop where
  nodup_names : (r.entries.map Entry.name).Nodup
  nodup_paired : (r.pairs.flatMap fun p => [p.1, p.2.name]).Nodup
  first_mem : ∀ p ∈ r.pairs, p.1 ∈ r.entries.map Entry.name
  second_mem : ∀ p ∈ r.pairs, p.2 ∈ r.entries

theorem mem_pairs_of_partner? {name : String} {e : Entry} (h : r.partner? name = some e) :
    (name, e) ∈ r.pairs := by
  obtain ⟨before, after, hpairs, -⟩ := List.lookup_eq_some_iff.1 h
  rw [← List.mem_reverse, hpairs]
  simp

theorem isSecond_eq_true_iff {name : String} :
    r.isSecond name = true ↔ ∃ p ∈ r.pairs, p.2.name = name := by
  simp [isSecond]

/-- A name in the turn of a box is the name of the box or that of its partner. -/
theorem mem_names_turnOf {e : Entry} {name : String} (h : name ∈ (r.turnOf e).names) :
    name = e.name ∨ ∃ partner, (e.name, partner) ∈ r.pairs ∧ name = partner.name := by
  unfold turnOf at h
  split at h
  · left
    simpa [Turn.names, Turn.entries] using h
  · rename_i partner hpartner
    simp only [Turn.names, Turn.entries, List.map_cons, List.map_nil, List.mem_cons,
      List.not_mem_nil, or_false] at h
    rcases h with rfl | rfl
    · exact .inl rfl
    · exact .inr ⟨partner, mem_pairs_of_partner? hpartner, rfl⟩

/-- A box has a turn alone exactly if it is in no pair. -/
theorem single_mem_turns {e : Entry} :
    Turn.single e ∈ r.turns ↔ e ∈ r.entries ∧ r.isPaired e.name = false := by
  unfold turns isPaired
  rw [List.mem_map]
  constructor
  · rintro ⟨f, hf, hturn⟩
    obtain ⟨hmem, hfirst⟩ := List.mem_filter.1 hf
    unfold turnOf at hturn
    split at hturn
    · rename_i hnone
      cases hturn
      exact ⟨hmem, by simpa [hnone] using hfirst⟩
    · cases hturn
  · rintro ⟨hmem, hunpaired⟩
    rw [Bool.or_eq_false_iff, Option.isSome_eq_false_iff, Option.isNone_iff_eq_none] at hunpaired
    obtain ⟨hnone, hfirst⟩ := hunpaired
    refine ⟨e, List.mem_filter.2 ⟨hmem, by simp [hfirst]⟩, ?_⟩
    rw [turnOf, hnone]

/-- The boxes of a turn are boxes of the registry if the second boxes of its pairs are. -/
theorem mem_entries_of_turns (hsecond : ∀ p ∈ r.pairs, p.2 ∈ r.entries) {t : Turn}
    (ht : t ∈ r.turns) {e : Entry} (he : e ∈ t.entries) : e ∈ r.entries := by
  obtain ⟨f, hf, rfl⟩ := List.mem_map.1 ht
  have hf' := (List.mem_filter.1 hf).1
  unfold turnOf at he
  split at he
  · rw [Turn.entries, List.mem_singleton] at he
    exact he ▸ hf'
  · rename_i partner hpartner
    simp only [Turn.entries, List.mem_cons, List.not_mem_nil, or_false] at he
    rcases he with rfl | rfl
    · exact hf'
    · exact hsecond _ (mem_pairs_of_partner? hpartner)

namespace Valid

variable (hr : r.Valid)

include hr

theorem eq_of_name_eq {e e' : Entry} (he : e ∈ r.entries) (he' : e' ∈ r.entries)
    (h : e.name = e'.name) : e = e' :=
  List.inj_on_of_nodup_map hr.nodup_names he he' h

/-- The pairs are determined by each of their names. -/
theorem pair_eq {p p' : String × Entry} (hp : p ∈ r.pairs) (hp' : p' ∈ r.pairs) (name : String)
    (h : name ∈ [p.1, p.2.name]) (h' : name ∈ [p'.1, p'.2.name]) : p = p' :=
  eq_of_nodup_flatMap hr.nodup_paired hp hp' h h'

theorem first_ne_second {p : String × Entry} (hp : p ∈ r.pairs) : p.1 ≠ p.2.name := by
  have hnodup := (List.nodup_flatMap.1 hr.nodup_paired).1 p hp
  simpa using hnodup

/-- The first box of a pair is not the second one of any. -/
theorem isSecond_of_mem_pairs {p : String × Entry} (hp : p ∈ r.pairs) :
    r.isSecond p.1 = false := by
  rw [← Bool.not_eq_true, isSecond_eq_true_iff]
  rintro ⟨p', hp', hname⟩
  have heq : p = p' := hr.pair_eq hp hp' p.1 (by simp) (by simp [hname])
  exact hr.first_ne_second hp (heq ▸ hname.symm)

theorem partner?_of_mem_pairs {p : String × Entry} (hp : p ∈ r.pairs) :
    r.partner? p.1 = some p.2 := by
  cases h : r.partner? p.1 with
  | none =>
    have hall := List.lookup_eq_none_iff.1 h p (List.mem_reverse.2 hp)
    simp at hall
  | some e =>
    have heq : (p.1, e) = p :=
      hr.pair_eq (mem_pairs_of_partner? h) hp p.1 (by simp) (by simp)
    rw [← heq]

/-- Two boxes have a turn together exactly if they are a pair. -/
theorem pair_mem_turns {e e' : Entry} :
    Turn.pair e e' ∈ r.turns ↔ e ∈ r.entries ∧ (e.name, e') ∈ r.pairs := by
  unfold turns
  rw [List.mem_map]
  constructor
  · rintro ⟨f, hf, hturn⟩
    unfold turnOf at hturn
    split at hturn
    · cases hturn
    · rename_i hpartner
      cases hturn
      exact ⟨(List.mem_filter.1 hf).1, mem_pairs_of_partner? hpartner⟩
  · rintro ⟨hmem, hpair⟩
    have hfirst : r.isSecond e.name = false := hr.isSecond_of_mem_pairs hpair
    have hpartner : r.partner? e.name = some e' := hr.partner?_of_mem_pairs hpair
    refine ⟨e, List.mem_filter.2 ⟨hmem, by simp [hfirst]⟩, ?_⟩
    rw [turnOf, hpartner]

/-- Every box has its turn. -/
theorem exists_mem_turns {e : Entry} (he : e ∈ r.entries) : ∃ t ∈ r.turns, e ∈ t.entries := by
  have hfirst : ∀ e ∈ r.entries, r.isSecond e.name = false → r.turnOf e ∈ r.turns := by
    intro e he h
    exact List.mem_map_of_mem (List.mem_filter.2 ⟨he, by simp [h]⟩)
  cases h : r.isSecond e.name with
  | false =>
    refine ⟨r.turnOf e, hfirst e he h, ?_⟩
    unfold turnOf
    split <;> simp [Turn.entries]
  | true =>
    -- A second box has its turn with the first one, which is itself no second box.
    obtain ⟨p, hp, hname⟩ := isSecond_eq_true_iff.1 h
    obtain ⟨f, hf, hfname⟩ := List.mem_map.1 (hr.first_mem p hp)
    have hsecond : p.2 = e := hr.eq_of_name_eq (hr.second_mem p hp) he hname
    refine ⟨r.turnOf f, hfirst f hf (hfname ▸ hr.isSecond_of_mem_pairs hp), ?_⟩
    rw [turnOf, hfname, hr.partner?_of_mem_pairs hp, hsecond]
    simp [Turn.entries]

/-- The boxes of a turn are boxes of the registry. -/
theorem mem_entries_of_mem_turns {t : Turn} (ht : t ∈ r.turns) {e : Entry} (he : e ∈ t.entries) :
    e ∈ r.entries :=
  mem_entries_of_turns hr.second_mem ht he

/-- **No two turns have a box in common**, and no turn has a box twice. -/
theorem nodup_names_turns : (r.turns.flatMap Turn.names).Nodup := by
  rw [List.nodup_flatMap, turns]
  constructor
  · intro t ht
    obtain ⟨e, -, rfl⟩ := List.mem_map.1 ht
    unfold turnOf
    split
    · simp [Turn.names, Turn.entries]
    · rename_i partner hpartner
      have hne := hr.first_ne_second (mem_pairs_of_partner? hpartner)
      simpa [Turn.names, Turn.entries] using hne
  have hnames : r.entries.Pairwise fun e e' => e.name ≠ e'.name :=
    List.pairwise_map.1 hr.nodup_names
  refine List.pairwise_map.2 ((hnames.filter _).imp_of_mem fun {e e'} he he' hne name hn hn' => ?_)
  -- Neither of the boxes is a second one, so they could only share a partner, which is in one pair.
  have hfirst : r.isSecond e.name = false := by simpa using (List.mem_filter.1 he).2
  have hfirst' : r.isSecond e'.name = false := by simpa using (List.mem_filter.1 he').2
  have hnot : ∀ {name : String} {p : String × Entry}, r.isSecond name = false → p ∈ r.pairs →
      name ≠ p.2.name := fun hfalse hp heq =>
    absurd (isSecond_eq_true_iff.2 ⟨_, hp, heq.symm⟩) (by simp [hfalse])
  rcases mem_names_turnOf hn with rfl | ⟨partner, hp, rfl⟩
  · rcases mem_names_turnOf hn' with heq | ⟨partner', hp', heq⟩
    · exact hne heq
    · exact hnot hfirst hp' heq
  · rcases mem_names_turnOf hn' with heq | ⟨partner', hp', heq⟩
    · exact hnot hfirst' hp heq.symm
    · have hpair := hr.pair_eq hp hp' partner.name (by simp) (by simp [heq])
      exact hne (congrArg Prod.fst hpair)

end Valid

/-! ### Registries of configurations -/

section Building

variable {engine : SearchEngine} {c : Config} {aliases : Option AliasTable} {f : FieldConfig}
  {e : Entry}

/-- Only a set field with a field for its mode gives a box with a typed mode. -/
theorem modeField_of_source {items : SetItems} {column : Option (DerivedColumn Int)} {m : String}
    (h : source aliases f = .ok (.setByField items column m)) : f.modeField = some m := by
  unfold source at h
  cases hkind : f.kind with
  | set =>
    rw [hkind] at h
    simp only [setSource] at h
    split at h
    · rename_i modeField hmode
      cases h
      exact hmode
    · split at h <;> cases h
  | boundedIntegers | label =>
    rw [hkind] at h
    simp only at h
    split at h <;> cases h
  | _ =>
    rw [hkind] at h
    cases h

/-- The readers and the table of labels of a configured box report errors of the user only. -/
theorem isRegular_of_source {k : Kind} (h : source aliases f = .ok (.fixed k)) : k.IsRegular := by
  unfold source at h
  cases hkind : f.kind with
  | assignments =>
    rw [hkind] at h
    cases h
    exact (element f.element).reader_blamesUser
  | label =>
    rw [hkind] at h
    simp only at h
    split at h
    · cases h
    · rename_i table
      cases h
      exact ⟨table, rfl⟩
  | set =>
    rw [hkind] at h
    simp only [setSource] at h
    split at h
    · cases h
    split at h
    · cases h
      trivial
    · cases h
  | boundedIntegers =>
    rw [hkind] at h
    simp only at h
    split at h
    · cases h
    · cases h
    · cases h
      trivial
  | _ =>
    rw [hkind] at h
    cases h
    trivial

theorem entry_eq_ok (h : entry aliases f = .ok e) :
    e.name = f.name ∧ source aliases f = .ok e.source := by
  unfold entry at h
  split at h
  · cases h
  · rename_i source hsource
    cases h
    exact ⟨rfl, hsource⟩

theorem pairOf_eq_ok {entries : List Entry} {p : PairConfig} {p' : String × Entry}
    (h : pairOf entries p = .ok p') :
    p'.1 = p.first ∧ p'.2.name = p.second ∧ p'.2 ∈ entries := by
  unfold pairOf at h
  split at h
  · rename_i second hfind
    cases h
    exact ⟨rfl, by simpa using List.find?_some hfind, List.mem_of_find?_eq_some hfind⟩
  · cases h

theorem build_eq_ok (h : build c aliases = .ok r) :
    c.fields.mapM (entry aliases) = .ok r.entries ∧
      c.pairs.mapM (pairOf r.entries) = .ok r.pairs := by
  obtain ⟨entries, hentries, h⟩ := bind_eq_ok.1 h
  obtain ⟨pairs, hpairs, rfl⟩ := map_eq_ok.1 h
  exact ⟨hentries, hpairs⟩

theorem exists_build_of_ofConfig (h : ofConfig engine c = .ok r) :
    ∃ aliases, build c aliases = .ok r := by
  unfold ofConfig at h
  split at h
  · exact ⟨none, h⟩
  · obtain ⟨table, -, h⟩ := bind_eq_ok.1 h
    exact ⟨some table, h⟩

/-- The boxes have the names of the fields. -/
theorem map_name_ofConfig (h : ofConfig engine c = .ok r) : r.entries.map Entry.name = c.names := by
  obtain ⟨aliases, h⟩ := exists_build_of_ofConfig h
  exact map_eq_map_of_mapM (build_eq_ok h).1 fun f e hf => (entry_eq_ok hf).1

/-- The second box of a pair is a box of the registry, whether or not the configuration was
checked. -/
theorem second_mem_ofConfig (h : ofConfig engine c = .ok r) : ∀ p ∈ r.pairs, p.2 ∈ r.entries := by
  intro p hp
  obtain ⟨aliases, hbuild⟩ := exists_build_of_ofConfig h
  obtain ⟨p', -, hp'⟩ := exists_of_mem_mapM (build_eq_ok hbuild).2 hp
  exact (pairOf_eq_ok hp').2.2

/-- A typed mode stands in the field that the configuration names. -/
theorem exists_modeField_of_ofConfig (h : ofConfig engine c = .ok r) (he : e ∈ r.entries) {m : String}
    (hm : e.modeField? = some m) : ∃ f ∈ c.fields, f.modeField = some m := by
  obtain ⟨aliases, h⟩ := exists_build_of_ofConfig h
  obtain ⟨f, hf, hentry⟩ := exists_of_mem_mapM (build_eq_ok h).1 he
  have hsource := (entry_eq_ok hentry).2
  unfold Entry.modeField? at hm
  split at hm
  · cases hm
  · rename_i items column modeField heq
    cases hm
    exact ⟨f, hf, modeField_of_source (hsource.trans (congrArg Except.ok heq))⟩

/-- **No configured box blames anyone but the user** for what its functions refuse. -/
theorem isRegular_kindIn_ofConfig (h : ofConfig engine c = .ok r) (he : e ∈ r.entries) (form : Form) :
    (e.kindIn form).IsRegular := by
  obtain ⟨aliases, h⟩ := exists_build_of_ofConfig h
  obtain ⟨f, -, hentry⟩ := exists_of_mem_mapM (build_eq_ok h).1 he
  have hsource := (entry_eq_ok hentry).2
  unfold Entry.kindIn
  split
  · rename_i k hk
    exact isRegular_of_source (hsource.trans (congrArg Except.ok hk))
  · trivial

/-- The pairs of the registry are those of the configuration. -/
theorem pairedNames_ofConfig (h : ofConfig engine c = .ok r) :
    (r.pairs.flatMap fun p => [p.1, p.2.name]) = c.pairedNames := by
  obtain ⟨aliases, hbuild⟩ := exists_build_of_ofConfig h
  have hpaired :
      r.pairs.map (fun p => [p.1, p.2.name]) = c.pairs.map fun p => [p.first, p.second] :=
    map_eq_map_of_mapM (build_eq_ok hbuild).2 fun p p' hp => by
      obtain ⟨hfirst, hsecond, -⟩ := pairOf_eq_ok hp
      rw [hfirst, hsecond]
  rw [Config.pairedNames, List.flatMap_def, List.flatMap_def, hpaired]

/-- **The registry of a checked configuration is valid.** -/
theorem valid_ofConfig (hc : c.check = .ok ()) (h : ofConfig engine c = .ok r) : r.Valid := by
  have hnames := map_name_ofConfig h
  have hpairedNames := pairedNames_ofConfig h
  refine ⟨?_, ?_, fun p hp => ?_, second_mem_ofConfig h⟩
  · rw [hnames]
    exact Config.nodup_names_of_check hc
  · rw [hpairedNames]
    exact Config.nodup_pairedNames_of_check hc
  · rw [hnames]
    refine Config.mem_names_of_mem_pairedNames hc ?_
    rw [← hpairedNames]
    exact List.mem_flatMap.2 ⟨p, hp, by simp⟩

end Building

end Registry

end SearchBox
