import Mathlib.Data.Set.Basic
import SearchBox.Pattern.Reader
import SearchBox.Proofs.Report

/-!
# A form compiles by its own boxes

Two compilations are followed side by side. Their forms are `Alike` as long as they have the same
texts under the names that are read and got the same messages and the same mark. Every call keeps
them alike and makes the same of both (`Box.alike_call`, `Conjunction.alike_call`), and so does every
turn and every run, also one that ends early (`Registry.Turn.alike_run`). The other entries of a form
are neither read nor written. On the command line the inputs may therefore come in any order
(`compile_reads_own_boxes`).
-/

namespace SearchBox

/-! ### Forms side by side -/

/-- Two forms that came from two first ones: they have the same texts under the names, and the same
messages were added to both, and the same mark. -/
structure Form.Alike (names : Set String) (first first' form form' : Form) : Prop where
  get?_eq : ∀ name ∈ names, form.get? name = form'.get? name
  flashes_eq : ∃ messages, form.flashes = first.flashes ++ messages ∧
    form'.flashes = first'.flashes ++ messages
  marked_eq : ∃ mark, form.marked = (first.marked || mark) ∧ form'.marked = (first'.marked || mark)

/-- Two outcomes with forms that are alike, and with the same query and the same result. -/
structure Outcome.Alike (names : Set String) (first first' : Form) (o o' : Outcome) : Prop where
  form_alike : Form.Alike names first first' o.form o'.form
  query_eq : o.query = o'.query
  result_eq : o.result = o'.result

variable {names : Set String} {first first' form form' : Form}

namespace Form.Alike

theorem refl (h : ∀ name ∈ names, form.get? name = form'.get? name) :
    Form.Alike names form form' form form' :=
  ⟨h, ⟨[], by simp, by simp⟩, false, by simp, by simp⟩

theorem set (h : Form.Alike names first first' form form') (field text : String) :
    Form.Alike names first first' (form.set field text) (form'.set field text) := by
  refine ⟨fun name hname => ?_, h.flashes_eq, h.marked_eq⟩
  rw [get?_set, get?_set, h.get?_eq name hname]

theorem flash (h : Form.Alike names first first' form form') (message : String) :
    Form.Alike names first first' (form.flash message).mark (form'.flash message).mark := by
  obtain ⟨messages, hmessages, hmessages'⟩ := h.flashes_eq
  refine ⟨h.get?_eq, ⟨messages ++ [message], ?_, ?_⟩, true, by simp [mark], by simp [mark]⟩
  · rw [← List.append_assoc, ← hmessages]
    rfl
  · rw [← List.append_assoc, ← hmessages']
    rfl

end Form.Alike

/-! ### Calls -/

namespace Box

variable {b : Box} {args : Arguments}

theorem alike_settle (h : Form.Alike names first first' form form') (field name : String)
    (text : List Char) (result : Except Error Unit) :
    Form.Alike names first first' (b.settle form field name text result)
      (b.settle form' field name text result) := by
  unfold settle
  cases result with
  | ok _ =>
    simp only
    split
    · exact h.set field _
    · exact h
  | error e =>
    simp only
    split
    · exact h.flash _
    · exact h

/-- **A call makes the same of two forms that are alike where it reads,** and keeps them alike. -/
theorem alike_call (h : Form.Alike names first first' form form')
    (hfield : ∀ field, b.field? args = some field → field ∈ names) (q : Query) :
    Outcome.Alike names first first' (b.call form q args) (b.call form' q args) := by
  have htyped : b.typed? form args = b.typed? form' args :=
    typed?_congr fun field hf => h.get?_eq field (hfield field hf)
  obtain ⟨hquery, hresult⟩ := call_congr (q := q) htyped
  refine ⟨?_, hquery, hresult⟩
  cases ht : b.typed? form args with
  | none =>
    rw [call_of_typed?_eq_none ht, call_of_typed?_eq_none (htyped ▸ ht)]
    exact h
  | some typed =>
    rw [call_of_typed?_eq_some ht, call_of_typed?_eq_some (htyped ▸ ht)]
    exact alike_settle h _ _ _ _

end Box

namespace Conjunction

/-- A pair makes the same of two forms that are alike, wherever it ends. -/
theorem alike_call (h : Form.Alike names first first' form form') {left right : Side}
    (hleft : ∀ field, left.box.field? left.args = some field → field ∈ names)
    (hright : ∀ field, right.box.field? right.args = some field → field ∈ names) (q : Query) :
    Outcome.Alike names first first' (call form q left right) (call form' q left right) := by
  obtain ⟨hform, hquery, hresult⟩ := left.box.alike_call h hleft .empty
  simp only [call, ← hquery, ← hresult]
  cases (left.box.call form .empty left.args).result with
  | error e => exact ⟨hform, rfl, rfl⟩
  | ok _ =>
    obtain ⟨hform', hquery', hresult'⟩ := right.box.alike_call hform hright .empty
    simp only [← hquery', ← hresult']
    cases (right.box.call (left.box.call form .empty left.args).form .empty right.args).result with
    | error e => exact ⟨hform', rfl, rfl⟩
    | ok _ =>
      simp only
      split <;> exact ⟨hform', rfl, rfl⟩

end Conjunction

/-! ### Turns and runs -/

namespace Registry

namespace Turn

/-- The names under which a turn reads: those of its boxes and those of the fields with their
modes. -/
def reads (t : Turn) : Set String :=
  {name | ∃ e ∈ t.entries, e.name = name ∨ e.modeField? = some name}

variable {t : Turn}

theorem side_of_alike (h : Form.Alike names first first' form form') (hreads : t.reads ⊆ names)
    {e : Entry} (he : e ∈ t.entries) : e.side form' = e.side form :=
  Entry.side_congr fun m hm => (h.get?_eq m (hreads ⟨e, he, .inr hm⟩)).symm

theorem field?_mem_of_reads (hreads : t.reads ⊆ names) {e : Entry} (he : e ∈ t.entries)
    {field : String} (hfield : (e.side form).box.field? (e.side form).args = some field) :
    field ∈ names := by
  rw [Entry.field?_side, Option.some.injEq] at hfield
  exact hreads ⟨e, he, .inl hfield⟩

/-- A turn makes the same of two forms that are alike where it reads. -/
theorem alike_call (h : Form.Alike names first first' form form') (hreads : t.reads ⊆ names)
    (q : Query) : Outcome.Alike names first first' (t.call form q) (t.call form' q) := by
  cases t with
  | single e =>
    have he : e ∈ (single e).entries := by simp [entries]
    simp only [call, side_of_alike h hreads he]
    exact Box.alike_call h (fun _ => field?_mem_of_reads hreads he) q
  | pair left right =>
    have hl : left ∈ (pair left right).entries := by simp [entries]
    have hr : right ∈ (pair left right).entries := by simp [entries]
    simp only [call, side_of_alike h hreads hl, side_of_alike h hreads hr]
    exact Conjunction.alike_call h (fun _ => field?_mem_of_reads hreads hl)
      (fun _ => field?_mem_of_reads hreads hr) q

/-- **A run makes the same of two forms that are alike where its turns read,** and it ends at the
same turn for both. -/
theorem alike_run {ts : List Turn} (h : Form.Alike names first first' form form')
    (hreads : ∀ t ∈ ts, t.reads ⊆ names) (q : Query) :
    Outcome.Alike names first first' (run form q ts) (run form' q ts) := by
  induction ts generalizing form form' q with
  | nil => exact ⟨h, rfl, rfl⟩
  | cons t ts ih =>
    have hturn := alike_call h (hreads t (by simp)) q
    cases hresult : (t.call form q).result with
    | error e =>
      rw [run_cons_of_error ts hresult, run_cons_of_error ts (hturn.result_eq ▸ hresult)]
      exact hturn
    | ok _ =>
      rw [run_cons_of_ok ts hresult, run_cons_of_ok ts (hturn.result_eq ▸ hresult),
        ← hturn.query_eq]
      exact ih hturn.form_alike (fun t ht => hreads t (by simp [ht])) _

end Turn

/-! ### Whole forms -/

/-- A compilation makes the same of two forms with the same texts where its turns read. -/
theorem alike_compile {r : Registry} (h : ∀ name ∈ names, form.get? name = form'.get? name)
    (hreads : ∀ t ∈ r.turns, t.reads ⊆ names) :
    (r.compile form).2 = (r.compile form').2 ∧
      Form.Alike names form form' (r.compile form).1 (r.compile form').1 := by
  have hrun := Turn.alike_run (.refl h) hreads .empty
  rw [compile_eq_run, compile_eq_run]
  refine ⟨?_, hrun.form_alike⟩
  simp only
  rw [hrun.result_eq, hrun.query_eq]

variable {engine : SearchEngine} {c : Config} {r : Registry}

/-- The turns of a configured registry read the fields of the configuration and those with their
modes. -/
theorem reads_subset_of_ofConfig (hr : ofConfig engine c = .ok r) {t : Turn} (ht : t ∈ r.turns) :
    t.reads ⊆ {name | ∃ f ∈ c.fields, f.name = name ∨ f.modeField = some name} := by
  rintro name ⟨e, he, hname⟩
  have hentry := mem_entries_of_turns (second_mem_ofConfig hr) ht he
  rcases hname with rfl | hmode
  · have hmem : e.name ∈ c.names := map_name_ofConfig hr ▸ List.mem_map_of_mem hentry
    obtain ⟨f, hf, hname⟩ := List.mem_map.1 hmem
    exact ⟨f, hf, .inl hname⟩
  · obtain ⟨f, hf, hmode⟩ := exists_modeField_of_ofConfig hr hentry hmode
    exact ⟨f, hf, .inr hmode⟩

/-- A compilation leaves all entries that are no configured fields as they are. -/
theorem get?_compile_of_not_mem (hr : ofConfig engine c = .ok r) {name : String} (h : name ∉ c.names) :
    (r.compile form).1.get? name = form.get? name := by
  rw [compile_eq_run]
  refine Turn.get?_form_run fun hmem => h ?_
  obtain ⟨t, ht, hname⟩ := List.mem_flatMap.1 hmem
  obtain ⟨e, he, rfl⟩ := List.mem_map.1 hname
  rw [← map_name_ofConfig hr]
  exact List.mem_map_of_mem (mem_entries_of_turns (second_mem_ofConfig hr) ht he)

end Registry

/-! ### On the command line -/

namespace Paging

theorem countOf_congr (h : ∀ name, form.get? name = form'.get? name) (default : Int) :
    countOf form default = countOf form' default := by
  rw [countOf, countOf, h]

theorem start_congr (h : ∀ name, form.get? name = form'.get? name) (default : Int) :
    start form default = start form' default := by
  rw [start, start, h, h]

end Paging

namespace CommandLine

/-- The name of the field in an input, if the input has one. -/
def fieldName? (input : String) : Option String :=
  (Text.cut '=' input.toList).map fun (field, _) => String.ofList field

/-- The report for a form does not depend on the order of its boxes. -/
theorem report_congr (h : ∀ name, form.get? name = form'.get? name)
    (hflashes : form.flashes = form'.flashes) (hmarked : form.marked = form'.marked) (c : Config)
    (r : Registry) (compact : Bool) : report c r compact form = report c r compact form' := by
  obtain ⟨hresult, halike⟩ : _ ∧ Form.Alike Set.univ form form' (r.compile form).1
      (r.compile form').1 :=
    Registry.alike_compile (fun name _ => h name) fun _ _ => Set.subset_univ _
  obtain ⟨messages, hmessages, hmessages'⟩ := halike.flashes_eq
  obtain ⟨mark, hmark, hmark'⟩ := halike.marked_eq
  have hget : ∀ name, (r.compile form).1.get? name = (r.compile form').1.get? name := fun name =>
    halike.get?_eq name (Set.mem_univ name)
  rw [← hflashes, ← hmessages] at hmessages'
  rw [← hmarked, ← hmark] at hmark'
  unfold report
  rcases hcompile : r.compile form with ⟨last, e | q⟩
  · rcases hcompile' : r.compile form' with ⟨last', e' | q'⟩
    · rw [hcompile, hcompile'] at hresult hmessages' hmark'
      cases hresult
      simp only at hmessages' hmark' ⊢
      rw [hmessages', hmark']
    · rw [hcompile, hcompile'] at hresult
      cases hresult
  · rcases hcompile' : r.compile form' with ⟨last', e' | q'⟩
    · rw [hcompile, hcompile'] at hresult
      cases hresult
    · rw [hcompile, hcompile'] at hresult hget
      cases hresult
      simp only [Paging.count] at hget ⊢
      rw [Paging.countOf_congr hget, Paging.start_congr fun name => ?_]
      rw [Form.get?_set, Form.get?_set, hget]

theorem fieldName?_of_readInput {input : String} {value : String × String}
    (h : readInput input = .ok value) : fieldName? input = some value.1 := by
  unfold readInput at h
  unfold fieldName?
  cases hcut : Text.cut '=' input.toList with
  | none =>
    rw [hcut] at h
    cases h
  | some parts =>
    rw [hcut] at h
    cases h
    rfl

/-- An input without a field ends the work with status one and no output. -/
theorem output_of_readInput {input : String} {o : Output} (h : readInput input = .error o) :
    o.out = "" ∧ o.status = 1 := by
  unfold readInput at h
  split at h
  · cases h
  · cases h
    exact ⟨rfl, rfl⟩

/-- Inputs with different fields make forms with different boxes. -/
theorem nodup_of_mapM_readInput {inputs : List String} {values : List (String × String)}
    (h : inputs.mapM readInput = .ok values) (hnodup : (inputs.filterMap fieldName?).Nodup) :
    (values.map Prod.fst).Nodup := by
  have hnames : values.map (fun value => some value.1) = inputs.map fieldName? :=
    map_eq_map_of_mapM h fun _ _ hvalue => (fieldName?_of_readInput hvalue).symm
  have hfilter : inputs.filterMap fieldName? = values.map Prod.fst := by
    calc inputs.filterMap fieldName?
        = (inputs.map fieldName?).filterMap id := by rw [List.filterMap_map]; rfl
      _ = (values.map fun value => some value.1).filterMap id := by rw [hnames]
      _ = values.map Prod.fst := by simp [List.filterMap_map]
  exact hfilter ▸ hnodup

/-- **The order of inputs for different fields does not matter.** -/
theorem run_compile_of_perm (engine : SearchEngine) (files : Files) (path : String) (compact : Bool)
    {inputs inputs' : List String} (hperm : inputs.Perm inputs')
    (hnodup : (inputs.filterMap fieldName?).Nodup) :
    (Request.run engine files (.compile path compact inputs)).out =
        (Request.run engine files (.compile path compact inputs')).out ∧
      (Request.run engine files (.compile path compact inputs)).status =
        (Request.run engine files (.compile path compact inputs')).status := by
  simp only [Request.run, runCompile]
  rcases load engine files path with o | ⟨c, r⟩
  · exact ⟨rfl, rfl⟩
  cases hvalues : inputs.mapM readInput with
  | ok values =>
    obtain ⟨values', hvalues', hperm'⟩ := exists_mapM_of_perm hperm hvalues
    have hget : ∀ name, (Form.ofList values).get? name = (Form.ofList values').get? name :=
      OrderedMap.get?_ofList_of_perm hperm' (nodup_of_mapM_readInput hvalues hnodup)
    have hreport := report_congr hget rfl rfl c r compact
    simp only [Except.bind, hvalues', Except.map, hreport, and_self]
  | error o =>
    -- Some input has no field. The other order has it too, if perhaps behind another such input.
    cases hvalues' : inputs'.mapM readInput with
    | ok values' =>
      obtain ⟨values, hok, -⟩ := exists_mapM_of_perm hperm.symm hvalues'
      rw [hvalues] at hok
      cases hok
    | error o' =>
      obtain ⟨_, -, ho⟩ := exists_of_mapM_error hvalues
      obtain ⟨_, -, ho'⟩ := exists_of_mapM_error hvalues'
      obtain ⟨hout, hstatus⟩ := output_of_readInput ho
      obtain ⟨hout', hstatus'⟩ := output_of_readInput ho'
      simp only [Except.bind, Except.map, merged, hout, hout', hstatus, hstatus', and_self]

end CommandLine

/-! ### Forms and command lines -/

namespace Registry

/-- **What becomes of a form depends on its own boxes only.** Let two forms have the same texts, or
both none, under the names of all configured fields and of all fields with a mode. Then they compile
to the same query or the same error, the same messages are added to both, and the same texts are left
in the boxes, while all other entries stay as they are. So a command line with its inputs in another
order gives the same output and the same status, if no two inputs are for one field. -/
theorem compile_reads_own_boxes :
    (∀ (engine : SearchEngine) (c : Config) (r : Registry), ofConfig engine c = .ok r →
      ∀ form form' : Form,
        (∀ f ∈ c.fields, form.get? f.name = form'.get? f.name ∧
          ∀ m, f.modeField = some m → form.get? m = form'.get? m) →
        (r.compile form).2 = (r.compile form').2 ∧
        (∃ messages, (r.compile form).1.flashes = form.flashes ++ messages ∧
          (r.compile form').1.flashes = form'.flashes ++ messages) ∧
        (∀ name ∈ c.names, (r.compile form).1.get? name = (r.compile form').1.get? name) ∧
        ∀ f ∈ [form, form'], (r.compile f).1.values.keys = f.values.keys ∧
          ∀ name, name ∉ c.names → (r.compile f).1.get? name = f.get? name) ∧
    ∀ (engine : SearchEngine) (files : CommandLine.Files) (path : String) (compact : Bool)
      (inputs inputs' : List String),
      inputs.Perm inputs' → (inputs.filterMap CommandLine.fieldName?).Nodup →
      let output := CommandLine.Request.run engine files (.compile path compact inputs)
      let output' := CommandLine.Request.run engine files (.compile path compact inputs')
      output.out = output'.out ∧ output.status = output'.status := by
  refine ⟨fun engine c r hr form form' h => ?_,
    fun engine files path compact inputs inputs' hperm hnodup =>
      CommandLine.run_compile_of_perm engine files path compact hperm hnodup⟩
  have hsame : ∀ name ∈ {name | ∃ f ∈ c.fields, f.name = name ∨ f.modeField = some name},
      form.get? name = form'.get? name := by
    rintro name ⟨f, hf, rfl | hmode⟩
    · exact (h f hf).1
    · exact (h f hf).2 name hmode
  obtain ⟨hresult, halike⟩ := alike_compile hsame fun t => reads_subset_of_ofConfig hr
  refine ⟨hresult, halike.flashes_eq, fun name hname => ?_, fun f _ => ⟨?_, fun name hname => ?_⟩⟩
  · obtain ⟨f, hf, hname⟩ := List.mem_map.1 hname
    exact halike.get?_eq name ⟨f, hf, .inl hname⟩
  · exact (r.reports_compile f).keys_eq
  · exact get?_compile_of_not_mem hr hname

/-- Two forms with their boxes in different orders, the second with an entry of its own, and two
orders of the inputs of a command line. -/
theorem compile_reads_own_boxes_reordered :
    let c : Config :=
      { fields := [{ name := "n", kind := .integers },
          { name := "s", kind := .set, items := .labels, modeField := some "m" }] }
    let box (name : String) (kind : FieldKind) (source : Source) : Entry :=
      { name, kind, key := name, label := none, source }
    let r : Registry :=
      { entries := [box "n" .integers (.fixed .integers),
          box "s" .set (.setByField (.labels false) none "m")]
        pairs := [] }
    let form : Form := .ofList [("n", " 1 .. 2"), ("m", "exclude"), ("s", "a, b")]
    let form' : Form := .ofList [("x", "<b>"), ("s", "a, b"), ("n", " 1 .. 2"), ("m", "exclude")]
    let files : CommandLine.Files := fun _ => .ok (.table [("field",
      .array [.table [("name", .string "n"), ("kind", .string "ints")]])])
    ofConfig Pattern.engine c = .ok r ∧ (r.compile form).2 = (r.compile form').2 ∧
      (r.compile form').1.get? "x" = some "<b>" ∧
      (CommandLine.Request.run Pattern.engine files (.compile "f" true ["n=1-2", "count=7"])).out =
        (CommandLine.Request.run Pattern.engine files
          (.compile "f" true ["count=7", "n=1-2"])).out := by
  intro c box r form form' files
  have hr : ofConfig Pattern.engine c = .ok r := rfl
  obtain ⟨hforms, hlines⟩ := compile_reads_own_boxes
  obtain ⟨hresult, -, -, hrest⟩ := hforms Pattern.engine c r hr form form' (by decide)
  have hother := (hrest form' (by simp)).2 "x" (by decide)
  exact ⟨hr, hresult, hother, (hlines Pattern.engine files "f" true _ _ (.swap _ _ _) (by decide)).1⟩

end Registry

end SearchBox
