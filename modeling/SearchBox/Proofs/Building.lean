import SearchBox.Pattern.Reader
import SearchBox.Proofs.Report

/-!
# Checked configurations can be built

The building of a registry looks at the fields and the pairs again, and could find other faults than
the check did. In a checked configuration it only finds what the check does not look at: a pattern
of the labels that the engine does not compile, whatever engine that is, or an unknown word for the
mode of a set (`excused_of_ofConfig`).

Fields and pairs are declared in any order. The turns of the registry are those that the
configuration asks for all the same: one for each pair and one for each field in no pair
(`perm_groups`), so that every box has one turn (`Valid.perm_entries_turns`). A compilation that
succeeds calls the boxes of the turns one after the other (`Turn.calls_of_run`), and hence every box
once.
-/

namespace SearchBox

universe u

/-! ### Faults that the check leaves -/

namespace SetMode

/-- Five words name a mode, the empty one among them. -/
theorem ofName?_eq_none_iff {s : String} :
    ofName? s = none ↔ s ∉ ["", "include", "exclude", "subset", "exactly"] := by
  unfold ofName?
  split
  · rename_i hempty
    simp [hempty]
  · rename_i hne
    simp only [List.find?_eq_none, decide_eq_true_eq]
    simp [name, hne, eq_comm (a := s)]

theorem ofName_eq_error {s : String} {e : Error} (h : ofName s = .error e) :
    s ∉ ["", "include", "exclude", "subset", "exactly"] ∧
      e = .misuse ("Unrecognized subset mode '" ++ s ++ "'") := by
  unfold ofName at h
  split at h
  · cases h
  · rename_i hnone
    cases h
    exact ⟨ofName?_eq_none_iff.1 hnone, rfl⟩

end SetMode

namespace FieldConfig

/-- The field is a set whose mode is fixed, to a word that names none. -/
def HasUnknownMode (f : FieldConfig) : Prop :=
  f.kind = .set ∧ f.modeField = none ∧
    ∃ mode, f.mode = some mode ∧ mode ∉ ["", "include", "exclude", "subset", "exactly"]

/-- The fault of such a field. -/
def modeFault (f : FieldConfig) : Registry.BoxFault :=
  .badMode (.misuse ("Unrecognized subset mode '" ++ f.mode.getD "" ++ "'"))

end FieldConfig

namespace Config

/-- The labels of the configuration are given by a text that the engine does not compile. -/
def HasBadPattern (engine : SearchEngine) (c : Config) (text : String) : Prop :=
  ∃ a, c.aliases = some a ∧ a.pattern = some text ∧ engine text = none

/-- What has a turn of its own: each pair, and each field in no pair. -/
def groups (c : Config) : List (List String) :=
  c.pairs.map (fun p => [p.first, p.second]) ++
    (c.names.filter fun name => name ∉ c.pairedNames).map fun name => [name]

end Config

namespace Registry

/-- The fault is one that the check of the configuration does not look for. -/
def Fault.Excused (engine : SearchEngine) (c : Config) : Fault → Prop
  | badPattern text => c.HasBadPattern engine text
  | badField name cause =>
    ∃ f ∈ c.fields, f.name = name ∧ f.HasUnknownMode ∧ cause = f.modeFault
  | unknownPaired _ => False

section Faults

variable {engine : SearchEngine} {c : Config} {aliases : Option AliasTable} {f : FieldConfig}

theorem badPattern_of_aliasTable {a : AliasConfig} {fault : Fault}
    (h : aliasTable engine a = .error fault) :
    ∃ text, a.pattern = some text ∧ engine text = none ∧ fault = .badPattern text := by
  unfold aliasTable at h
  split at h
  · cases h
  · rename_i text hpattern
    split at h
    · cases h
    · rename_i hnone
      cases h
      exact ⟨text, hpattern, hnone, rfl⟩

/-- A set field without a source has a fixed mode that is unknown. -/
theorem badMode_of_setSource {cause : BoxFault} (hkind : f.kind = .set)
    (h : setSource f = .error cause) : f.HasUnknownMode ∧ cause = f.modeFault := by
  unfold setSource at h
  simp only at h
  split at h
  · cases h
  rename_i hmodeField
  split at h
  · cases h
  rename_i e he
  cases h
  obtain ⟨hword, rfl⟩ := SetMode.ofName_eq_error he
  cases hmode : f.mode with
  | none => simp [hmode] at hword
  | some mode =>
    rw [hmode, Option.getD_some] at hword
    exact ⟨⟨hkind, hmodeField, mode, hmode, hword⟩, by rw [FieldConfig.modeFault, hmode]⟩

/-- Of the fields of a checked configuration only a set can be without a source. -/
theorem badMode_of_source (hc : c.check = .ok ()) (hf : f ∈ c.fields)
    (haliases : aliases.isSome = c.aliases.isSome) {cause : BoxFault}
    (h : source aliases f = .error cause) : f.HasUnknownMode ∧ cause = f.modeFault := by
  unfold source at h
  cases hkind : f.kind with
  | boundedIntegers =>
    have hbounds := Config.hasBounds_of_check hc hf hkind
    rw [hkind] at h
    unfold Config.hasBounds at hbounds
    split at hbounds
    · rename_i min max hmin hmax
      rw [hmin, hmax] at h
      cases h
    · cases hbounds
  | label =>
    have hsome : aliases.isSome = true :=
      haliases.trans (Config.isSome_aliases_of_check hc hf hkind)
    obtain ⟨table, rfl⟩ := Option.isSome_iff_exists.1 hsome
    rw [hkind] at h
    cases h
  | set =>
    rw [hkind] at h
    exact badMode_of_setSource hkind h
  | _ =>
    rw [hkind] at h
    cases h

theorem entry_eq_error {fault : Fault} (h : entry aliases f = .error fault) :
    ∃ cause, source aliases f = .error cause ∧ fault = .badField f.name cause := by
  unfold entry at h
  split at h
  · rename_i cause hsource
    cases h
    exact ⟨cause, hsource, rfl⟩
  · cases h

/-- Only a name that no box has cannot be paired. -/
theorem pairOf_eq_error {entries : List Entry} {p : PairConfig} {fault : Fault}
    (h : pairOf entries p = .error fault) : p.second ∉ entries.map Entry.name := by
  unfold pairOf at h
  split at h
  · cases h
  · rename_i hnone
    simpa using hnone

theorem excused_of_build (hc : c.check = .ok ()) (haliases : aliases.isSome = c.aliases.isSome)
    {fault : Fault} (h : build c aliases = .error fault) : fault.Excused engine c := by
  unfold build at h
  cases hentries : c.fields.mapM (entry aliases) with
  | error fault' =>
    rw [hentries] at h
    cases h
    obtain ⟨f, hf, hentry⟩ := exists_of_mapM_error hentries
    obtain ⟨cause, hsource, rfl⟩ := entry_eq_error hentry
    obtain ⟨hmode, hcause⟩ := badMode_of_source hc hf haliases hsource
    exact ⟨f, hf, rfl, hmode, hcause⟩
  | ok entries =>
    have hnames : entries.map Entry.name = c.names :=
      map_eq_map_of_mapM hentries fun f e hf => (entry_eq_ok hf).1
    rw [hentries] at h
    cases hpairs : c.pairs.mapM (pairOf entries) with
    | ok pairs =>
      simp only [Except.bind, hpairs, Except.map] at h
      cases h
    | error fault' =>
      -- The check has found the second name of every pair among those of the fields.
      obtain ⟨p, hp, hpair⟩ := exists_of_mapM_error hpairs
      have hmem : p.second ∈ c.pairedNames := List.mem_flatMap.2 ⟨p, hp, by simp⟩
      have hknown := Config.mem_names_of_mem_pairedNames hc hmem
      rw [← hnames] at hknown
      exact absurd hknown (pairOf_eq_error hpair)

/-- **The registry of a checked configuration is built** unless the fault is one that the check does
not look for. -/
theorem excused_of_ofConfig (hc : c.check = .ok ()) {fault : Fault}
    (h : ofConfig engine c = .error fault) : fault.Excused engine c := by
  unfold ofConfig at h
  split at h
  · rename_i haliases
    exact excused_of_build hc (by rw [haliases]; rfl) h
  · rename_i a haliases
    cases htable : aliasTable engine a with
    | error fault' =>
      rw [htable] at h
      cases h
      obtain ⟨text, hpattern, hnone, rfl⟩ := badPattern_of_aliasTable htable
      exact ⟨a, haliases, hpattern, hnone⟩
    | ok table =>
      rw [htable] at h
      exact excused_of_build hc (by rw [haliases]; rfl) h

/-- Each fault that the check does not look for prevents the building. -/
theorem exists_error_of_excused {fault : Fault} (h : fault.Excused engine c) :
    ∃ fault', ofConfig engine c = .error fault' := by
  cases hr : ofConfig engine c with
  | error fault' => exact ⟨fault', rfl⟩
  | ok r =>
    exfalso
    cases fault with
    | badPattern text =>
      obtain ⟨a, haliases, hpattern, hnone⟩ := h
      simp only [ofConfig, haliases, aliasTable, hpattern, hnone] at hr
      cases hr
    | badField name cause =>
      obtain ⟨f, hf, -, ⟨hkind, hmodeField, mode, hmode, hword⟩, -⟩ := h
      obtain ⟨aliases, hbuild⟩ := exists_build_of_ofConfig hr
      obtain ⟨e, -, hentry⟩ := exists_mem_of_mapM (build_eq_ok hbuild).1 hf
      have hsource := (entry_eq_ok hentry).2
      simp only [source, hkind, setSource, hmodeField, hmode, Option.getD_some, SetMode.ofName,
        SetMode.ofName?_eq_none_iff.2 hword] at hsource
      cases hsource
    | unknownPaired name => exact h

end Faults

/-! ### Turns -/

/-- Lists that share no member and have one each are all different. -/
theorem nodup_of_nodup_flatten {α : Type u} {ls : List (List α)} (h : ls.flatten.Nodup)
    (hne : [] ∉ ls) : ls.Nodup := by
  refine (List.nodup_flatten.1 h).2.imp_of_mem fun {as bs} has _ hdisjoint heq => ?_
  subst heq
  obtain ⟨a, ha⟩ := List.exists_mem_of_ne_nil as fun hnil => hne (hnil ▸ has)
  exact hdisjoint ha ha

/-- A box belongs to a pair exactly if the name is one of a pair. -/
theorem isPaired_eq_true_iff {r : Registry} {name : String} :
    r.isPaired name = true ↔ name ∈ r.pairs.flatMap fun p => [p.1, p.2.name] := by
  have hfirst : (r.partner? name).isSome = true ↔ ∃ p ∈ r.pairs, p.1 = name := by
    rw [← Option.ne_none_iff_isSome, partner?, Ne, List.lookup_eq_none_iff]
    simp [eq_comm (a := name)]
  rw [isPaired, Bool.or_eq_true, hfirst, isSecond_eq_true_iff, List.mem_flatMap]
  constructor
  · rintro (⟨p, hp, rfl⟩ | ⟨p, hp, rfl⟩)
    · exact ⟨p, hp, by simp⟩
    · exact ⟨p, hp, by simp⟩
  · rintro ⟨p, hp, hname⟩
    simp only [List.mem_cons, List.not_mem_nil, or_false] at hname
    rcases hname with rfl | rfl
    · exact .inl ⟨p, hp, rfl⟩
    · exact .inr ⟨p, hp, rfl⟩

/-- **Every box has its turn once.** -/
theorem Valid.perm_entries_turns {r : Registry} (hr : r.Valid) :
    (r.turns.flatMap Turn.entries).Perm r.entries := by
  have hnames : ((r.turns.flatMap Turn.entries).map Entry.name).Nodup := by
    rw [List.map_flatMap]
    exact hr.nodup_names_turns
  refine (List.perm_ext_iff_of_nodup hnames.of_map hr.nodup_names.of_map).2 fun e => ?_
  rw [List.mem_flatMap]
  constructor
  · rintro ⟨t, ht, he⟩
    exact hr.mem_entries_of_mem_turns ht he
  · exact fun he => hr.exists_mem_turns he

section Groups

variable {engine : SearchEngine} {c : Config} {r : Registry}

/-- The turns of a checked configuration have the boxes of its groups. -/
theorem mem_names_turns_iff (hc : c.check = .ok ()) (h : ofConfig engine c = .ok r)
    {names : List String} : names ∈ r.turns.map Turn.names ↔ names ∈ c.groups := by
  have hr := valid_ofConfig hc h
  obtain ⟨aliases, hbuild⟩ := exists_build_of_ofConfig h
  have hpairs := (build_eq_ok hbuild).2
  have hunpaired : ∀ name, r.isPaired name = false ↔ name ∉ c.pairedNames := by
    intro name
    rw [← pairedNames_ofConfig h, ← isPaired_eq_true_iff, Bool.not_eq_true]
  simp only [Config.groups, List.mem_append, List.mem_map, List.mem_filter, decide_eq_true_eq]
  constructor
  · rintro ⟨t, ht, rfl⟩
    cases t with
    | single e =>
      obtain ⟨he, hname⟩ := single_mem_turns.1 ht
      refine .inr ⟨e.name, ⟨?_, (hunpaired e.name).1 hname⟩, rfl⟩
      rw [← map_name_ofConfig h]
      exact List.mem_map_of_mem he
    | pair e e' =>
      obtain ⟨-, hmem⟩ := hr.pair_mem_turns.1 ht
      obtain ⟨p, hp, hpair⟩ := exists_of_mem_mapM hpairs hmem
      obtain ⟨hfirst, hsecond, -⟩ := pairOf_eq_ok hpair
      simp only at hfirst hsecond
      exact .inl ⟨p, hp, by rw [← hfirst, ← hsecond]; rfl⟩
  · rintro (⟨p, hp, rfl⟩ | ⟨name, ⟨hname, hnot⟩, rfl⟩)
    · obtain ⟨p', hp', hpair⟩ := exists_mem_of_mapM hpairs hp
      obtain ⟨hfirst, hsecond, -⟩ := pairOf_eq_ok hpair
      obtain ⟨e, he, hename⟩ := List.mem_map.1 (hr.first_mem p' hp')
      refine ⟨.pair e p'.2, hr.pair_mem_turns.2 ⟨he, by rwa [hename]⟩, ?_⟩
      simp only [Turn.names, Turn.entries, List.map_cons, List.map_nil, hename, hfirst, hsecond]
    · rw [← map_name_ofConfig h] at hname
      obtain ⟨e, he, rfl⟩ := List.mem_map.1 hname
      exact ⟨.single e, single_mem_turns.2 ⟨he, (hunpaired e.name).2 hnot⟩, rfl⟩

theorem flatten_groups (c : Config) :
    c.groups.flatten = c.pairedNames ++ c.names.filter fun name => name ∉ c.pairedNames := by
  rw [Config.groups, List.flatten_append, ← List.flatMap_def, ← List.flatMap_def,
    List.flatMap_singleton', Config.pairedNames]

/-- The groups of a checked configuration have no field in common. -/
theorem nodup_flatten_groups (hc : c.check = .ok ()) : c.groups.flatten.Nodup := by
  rw [flatten_groups]
  refine List.Nodup.append (Config.nodup_pairedNames_of_check hc)
    ((Config.nodup_names_of_check hc).filter _) fun name hpaired hname => ?_
  exact of_decide_eq_true (List.mem_filter.1 hname).2 hpaired

/-- **Every field of a checked configuration is in one group.** -/
theorem perm_flatten_groups (hc : c.check = .ok ()) : c.groups.flatten.Perm c.names := by
  refine (List.perm_ext_iff_of_nodup (nodup_flatten_groups hc)
    (Config.nodup_names_of_check hc)).2 fun name => ?_
  rw [flatten_groups, List.mem_append, List.mem_filter, decide_eq_true_eq]
  constructor
  · rintro (hpaired | ⟨hname, -⟩)
    · exact Config.mem_names_of_mem_pairedNames hc hpaired
    · exact hname
  · intro hname
    by_cases hpaired : name ∈ c.pairedNames
    · exact .inl hpaired
    · exact .inr ⟨hname, hpaired⟩

/-- **The turns are those that the configuration asks for**, in whatever order it declares the
fields and the pairs. -/
theorem perm_groups (hc : c.check = .ok ()) (h : ofConfig engine c = .ok r) :
    (r.turns.map Turn.names).Perm c.groups := by
  have hnil : [] ∉ c.groups := by simp [Config.groups]
  have hturns : (r.turns.map Turn.names).flatten.Nodup := by
    rw [← List.flatMap_def]
    exact (valid_ofConfig hc h).nodup_names_turns
  have hnil' : [] ∉ r.turns.map Turn.names := fun hmem =>
    hnil ((mem_names_turns_iff hc h).1 hmem)
  exact (List.perm_ext_iff_of_nodup (nodup_of_nodup_flatten hturns hnil')
    (nodup_of_nodup_flatten (nodup_flatten_groups hc) hnil)).2 fun names => mem_names_turns_iff hc h

end Groups

/-! ### Calls of a compilation that succeeds -/

namespace Turn

/-- A turn that succeeds calls all its boxes, each with success. -/
theorem calls_of_call {t : Turn} {form : Form} {q : Query}
    (h : (t.call form q).result = .ok ()) :
    (t.calls form q).map Call.entry = t.entries ∧
      ∀ call ∈ t.calls form q, call.outcome.result = .ok () := by
  cases t with
  | single e =>
    refine ⟨rfl, fun call hcall => ?_⟩
    rw [calls, List.mem_singleton] at hcall
    rw [hcall]
    exact h
  | pair first second =>
    obtain ⟨mid, l, m, cs, hleft, hright, -, -⟩ :=
      Conjunction.call_eq_ok.1 (Outcome.eq_of_result h)
    have houtcome : (⟨first, form, form, .empty⟩ : Call).outcome = ⟨mid, l, .ok ()⟩ := hleft
    have hcalls : (pair first second).calls form q =
        [⟨first, form, form, .empty⟩, ⟨second, form, mid, .empty⟩] := by
      simp only [calls, houtcome]
    rw [hcalls]
    refine ⟨rfl, List.forall_mem_cons.2 ⟨?_, List.forall_mem_singleton.2 ?_⟩⟩
    · exact congrArg Outcome.result hleft
    · exact congrArg Outcome.result hright

/-- **A run that succeeds calls the boxes of its turns** one after the other, each with success. -/
theorem calls_of_run {ts : List Turn} {form : Form} {q : Query}
    (h : (run form q ts).result = .ok ()) :
    (runCalls form q ts).map Call.entry = ts.flatMap entries ∧
      ∀ call ∈ runCalls form q ts, call.outcome.result = .ok () := by
  induction ts generalizing form q with
  | nil => simp [runCalls]
  | cons t ts ih =>
    cases hresult : (t.call form q).result with
    | error e =>
      rw [run_cons_of_error ts hresult, hresult] at h
      cases h
    | ok _ =>
      rw [run_cons_of_ok ts hresult] at h
      obtain ⟨hentries, hok⟩ := calls_of_call hresult
      obtain ⟨hentries', hok'⟩ := ih h
      simp only [runCalls, hresult]
      refine ⟨by rw [List.map_append, hentries, hentries', List.flatMap_cons], fun call hcall => ?_⟩
      rcases List.mem_append.1 hcall with hcall | hcall
      · exact hok call hcall
      · exact hok' call hcall

end Turn

/-- **Checking suffices.** If a configuration passes the check, then its registry is built, unless
the engine does not compile the pattern of its labels or a set has an unknown word for its fixed mode. Whatever the
order in which fields and pairs are declared, the registry has a box for each field, a turn for each
pair and one for each field in no pair, and these are all its turns; every field is in one of them. A
compilation that succeeds has taken these turns: it calls their boxes one after the other, each from
the form that the one before has left, and calls every box once. -/
theorem ofConfig_of_check {engine : SearchEngine} {c : Config} (hc : c.check = .ok ()) :
    (∀ fault, ofConfig engine c = .error fault → fault.Excused engine c) ∧
    ∀ r, ofConfig engine c = .ok r →
      r.entries.map Entry.name = c.names ∧ c.names.Nodup ∧
      (r.turns.map Turn.names).Perm c.groups ∧ c.groups.flatten.Perm c.names ∧
      ∀ form form' q, r.compile form = (form', .ok q) →
        Turn.run form .empty r.turns = ⟨form', q, .ok ()⟩ ∧ Traced form (r.calls form) form' ∧
        (∀ call ∈ r.calls form, call.outcome.result = .ok ()) ∧
        (r.calls form).map Call.entry = r.turns.flatMap Turn.entries ∧
        ((r.calls form).map Call.entry).Perm r.entries := by
  refine ⟨fun fault => excused_of_ofConfig hc, fun r h => ?_⟩
  refine ⟨map_name_ofConfig h, Config.nodup_names_of_check hc, perm_groups hc h,
    perm_flatten_groups hc, ?_⟩
  intro form form' q hcompile
  have hrun := compile_eq_ok.1 hcompile
  obtain ⟨hentries, hok⟩ := Turn.calls_of_run (congrArg Outcome.result hrun)
  have htraced := r.traced_compile form
  rw [hcompile] at htraced
  refine ⟨hrun, htraced, hok, hentries, ?_⟩
  rw [calls, hentries]
  exact (valid_ofConfig hc h).perm_entries_turns

/-- A pair whose second field is declared first, around a field in no pair; and a set whose fixed
mode is no word for one. -/
theorem ofConfig_of_check_pair :
    let field (name : String) : FieldConfig := { name, kind := .text }
    let c : Config :=
      { fields := [field "b", field "n", field "a"], pairs := [{ first := "a", second := "b" }] }
    let c' : Config := { fields := [{ name := "s", kind := .set, mode := some "all" }] }
    let form : Form := .ofList [("n", "7"), ("b", "2"), ("a", "1")]
    c.check = .ok () ∧ c'.check = .ok () ∧ c.groups = [["a", "b"], ["n"]] ∧
      (∃ r form' q, ofConfig Pattern.engine c = .ok r ∧ r.compile form = (form', .ok q) ∧
        ((r.calls form).map fun call => call.entry.name) = ["n", "a", "b"] ∧
        ((r.calls form).map Call.entry).Perm r.entries) ∧
      ∃ fault : Fault, ofConfig Pattern.engine c' = .error fault ∧ fault.Excused Pattern.engine c' := by
  intro field c c' form
  obtain ⟨r, hr⟩ : ∃ r, ofConfig Pattern.engine c = .ok r := ⟨_, rfl⟩
  obtain ⟨form', q, hcompile⟩ : ∃ form' q, r.compile form = (form', .ok q) := by
    cases hr
    exact ⟨_, _, rfl⟩
  obtain ⟨fault, hfault⟩ : ∃ fault, ofConfig Pattern.engine c' = .error fault := ⟨_, rfl⟩
  obtain ⟨-, hbuilt⟩ := @ofConfig_of_check Pattern.engine c rfl
  obtain ⟨-, -, -, -, hcompiles⟩ := hbuilt r hr
  obtain ⟨-, -, -, -, hperm⟩ := hcompiles form form' q hcompile
  have hexcused := (@ofConfig_of_check Pattern.engine c' rfl).1 fault hfault
  have hnames : ((r.calls form).map fun call => call.entry.name) = ["n", "a", "b"] := by
    cases hr
    decide +kernel
  exact ⟨rfl, rfl, rfl, ⟨r, form', q, hr, hcompile, hnames, hperm⟩, fault, hfault, hexcused⟩

end Registry

end SearchBox
