import SearchBox.CommandLine
import SearchBox.Proofs.Registry

/-!
# What a compilation reports

A call flashes one message and sets the mark if it refuses a text, and does neither otherwise
(`Box.reports_call`). All calls of a compilation but the last one succeed, so what they report adds
up to the report of the last one (`Form.Reports.trans`), and a compilation reports its error once or
not at all (`compile_reports_once`).

`Registry.calls` lists the calls of the boxes in their order. Each begins in the form that the one
before has left (`traced_compile`), so a text that has changed was changed by one of the calls: by a
call of its own box, which succeeded and echoes (`exists_call_of_get?_ne`).
-/

namespace SearchBox

universe u

/-- The computation failed, and the user is to blame. -/
def isRefusal {α : Type u} : Except Error α → Bool
  | .ok _ => false
  | .error e => e.isInput

theorem isRefusal_map {α β : Type u} (x : Except Error α) (f : α → β) :
    isRefusal (x.map f) = isRefusal x := by
  cases x <;> rfl

/-! ### Reports in a form -/

namespace Form

/-- The second form has the boxes of the first one in their order. If something was refused, it has
one message more and the mark, and otherwise the same messages and the same mark. -/
structure Reports (form form' : Form) (refused : Bool) : Prop where
  keys_eq : form'.values.keys = form.values.keys
  flashes_eq : ∃ messages, form'.flashes = form.flashes ++ messages ∧
    messages.length = refused.toNat
  marked_eq : form'.marked = (form.marked || refused)

variable {form form' form'' : Form} {refused : Bool}

theorem Reports.refl (form : Form) : form.Reports form false :=
  ⟨rfl, ⟨[], by simp, rfl⟩, by simp⟩

/-- What comes after a success reports for both. -/
theorem Reports.trans (h : form.Reports form' false) (h' : form'.Reports form'' refused) :
    form.Reports form'' refused := by
  obtain ⟨messages, hmessages, hlen⟩ := h.flashes_eq
  obtain ⟨messages', hmessages', hlen'⟩ := h'.flashes_eq
  refine ⟨h'.keys_eq.trans h.keys_eq, ⟨messages ++ messages', ?_, ?_⟩, ?_⟩
  · rw [hmessages', hmessages, List.append_assoc]
  · rw [List.length_append, hlen, hlen', Bool.toNat_false, Nat.zero_add]
  · rw [h'.marked_eq, h.marked_eq, Bool.or_false]

theorem reports_set {field raw : String} (h : form.get? field = some raw) (text : String) :
    form.Reports (form.set field text) false := by
  have hmem : field ∈ form.values.keys := by
    by_contra hnot
    have hnone : form.get? field = none := OrderedMap.get?_eq_none_iff.2 hnot
    rw [h] at hnone
    cases hnone
  refine ⟨?_, ⟨[], by simp [set], rfl⟩, by simp [set]⟩
  show (form.values.insert field text).keys = form.values.keys
  rw [OrderedMap.keys_insert, if_pos hmem]

theorem reports_flash (form : Form) (message : String) :
    form.Reports (form.flash message).mark true :=
  ⟨rfl, ⟨[message], rfl, rfl⟩, by simp [mark]⟩

end Form

/-! ### One call -/

namespace Box

variable {b : Box} {form : Form} {q : Query} {args : Arguments}

theorem reports_settle {field raw : String} (h : form.get? field = some raw) (name : String)
    (text : List Char) (result : Except Error Unit) :
    form.Reports (b.settle form field name text result) (isRefusal result) := by
  cases result with
  | ok _ =>
    show form.Reports (b.echo form field text) false
    unfold echo
    split
    · exact Form.reports_set h _
    · exact .refl form
  | error e =>
    unfold settle isRefusal
    simp only
    split
    · rename_i hinput
      rw [hinput]
      exact Form.reports_flash form _
    · rename_i hinput
      rw [Bool.eq_false_iff.2 hinput]
      exact .refl form

/-- **A call reports its error if and only if the user is to blame.** -/
theorem reports_call (b : Box) (form : Form) (q : Query) (args : Arguments) :
    form.Reports (b.call form q args).form (isRefusal (b.call form q args).result) := by
  cases ht : b.typed? form args with
  | none =>
    rw [call_of_typed?_eq_none ht]
    exact .refl form
  | some typed =>
    obtain ⟨field, raw⟩ := typed
    obtain ⟨-, hraw, -⟩ := typed?_eq_some.1 ht
    rw [call_of_typed?_eq_some ht]
    exact reports_settle hraw _ _ _

theorem get?_settle_error (field name other : String) (text : List Char) (e : Error) :
    (b.settle form field name text (.error e)).get? other = form.get? other := by
  unfold settle
  simp only
  split <;> rfl

/-- A call that fails changes no text. -/
theorem get?_call_of_error {e : Error} (h : (b.call form q args).result = .error e)
    (other : String) : (b.call form q args).form.get? other = form.get? other := by
  cases ht : b.typed? form args with
  | none => rw [call_of_typed?_eq_none ht]
  | some typed =>
    obtain ⟨field, raw⟩ := typed
    rw [call_of_typed?_eq_some ht] at h ⊢
    have hsettle : ∃ name text, (b.callOn form q args field raw).form =
        b.settle form field name text (b.callOn form q args field raw).result := ⟨_, _, rfl⟩
    obtain ⟨name, text, hform⟩ := hsettle
    rw [hform, h, get?_settle_error]

/-- **Only a call that succeeds changes a text:** that of its own field, if the box echoes. -/
theorem of_get?_call_ne {other : String}
    (h : (b.call form q args).form.get? other ≠ form.get? other) :
    b.field? args = some other ∧ (b.call form q args).result = .ok () ∧
      b.policy.echoes = true := by
  have hfield : b.field? args = some other := by
    by_contra hne
    exact h (get?_call_of_ne hne)
  cases hresult : (b.call form q args).result with
  | error e => exact absurd (get?_call_of_error hresult other) h
  | ok _ =>
    refine ⟨hfield, rfl, ?_⟩
    by_contra hechoes
    apply h
    rcases call_eq_ok.1 (Outcome.eq_of_result hresult) with
      ⟨-, hform, -⟩ | ⟨field, raw, -, -, -, hform⟩
    · rw [hform]
    · rw [hform, echo, if_neg hechoes]

end Box

/-! ### A pair of calls -/

namespace Conjunction

theorem failsOnly_sides (q : Query) : FailsOnly (·.isInput = false) (sides q) := by
  refine .ite (.error rfl) ?_
  split
  · exact .ok _
  · exact .ok _

/-- Queries that cannot be combined are not the user's fault. -/
theorem failsOnly_combine (l r : Query) : FailsOnly (·.isInput = false) (combine l r) := by
  refine (failsOnly_sides l).bind fun ls => (failsOnly_sides r).bind fun rs => ?_
  refine .ite (.ok rs) (.ite (.ok ls) fun e he => ?_)
  obtain ⟨key, rfl, -⟩ := joinAll_eq_error he
  rfl

variable {form : Form} {first : Side} (q : Query) (second : Side)

/-- A pair whose first box fails is like that box. -/
theorem call_of_first_error {e : Error}
    (h : (first.box.call form .empty first.args).result = .error e) :
    (call form q first second).form = (first.box.call form .empty first.args).form ∧
      (call form q first second).result = .error e := by
  simp only [call, h, and_self]

/-- A pair whose first box succeeds leaves the form of the second one. Its result is that of the
second box, or else it is not the user who is to blame. -/
theorem call_of_first_ok {right : Outcome}
    (h : (first.box.call form .empty first.args).result = .ok ())
    (hright : second.box.call (first.box.call form .empty first.args).form .empty second.args =
      right) :
    (call form q first second).form = right.form ∧
      isRefusal (call form q first second).result = isRefusal right.result := by
  simp only [call, h, hright]
  rcases hresult : right.result with e | _
  · exact ⟨rfl, rfl⟩
  cases hcombine : combine (first.box.call form .empty first.args).query right.query with
  | ok cs => exact ⟨rfl, rfl⟩
  | error e => exact ⟨rfl, failsOnly_combine _ _ e hcombine⟩

/-- **A pair reports an error once:** that of the box which refuses its text. -/
theorem reports_call (form : Form) (q : Query) (first second : Side) :
    form.Reports (call form q first second).form
      (isRefusal (call form q first second).result) := by
  have hleft := first.box.reports_call form .empty first.args
  cases hfirst : (first.box.call form .empty first.args).result with
  | error e =>
    obtain ⟨hform, hresult⟩ := call_of_first_error q second hfirst
    rw [hform, hresult, ← hfirst]
    exact hleft
  | ok _ =>
    obtain ⟨hform, hresult⟩ := call_of_first_ok q second hfirst rfl
    rw [hfirst] at hleft
    rw [hform, hresult]
    exact hleft.trans (second.box.reports_call _ _ _)

end Conjunction

/-! ### The calls of a compilation -/

/-- A call of a configured box: the form in which its turn began, from which a typed mode is read,
and the form and the query that the call was given. -/
structure Call where
  entry : Entry
  start : Form
  form : Form
  query : Query

namespace Call

/-- The box that is called. -/
def box (c : Call) : Box := (c.entry.side c.start).box

/-- The form, the query and the result after the call. -/
def outcome (c : Call) : Outcome := c.box.call c.form c.query (c.entry.side c.start).args

/-- A call that changes a text is one of that box, it succeeds, and the box echoes. -/
theorem of_get?_outcome_ne {c : Call} {name : String}
    (h : c.outcome.form.get? name ≠ c.form.get? name) :
    c.entry.name = name ∧ c.outcome.result = .ok () ∧ c.box.policy.echoes = true := by
  obtain ⟨hfield, hresult, hechoes⟩ := Box.of_get?_call_ne h
  exact ⟨Option.some.inj hfield, hresult, hechoes⟩

end Call

/-- The calls lead from the first form to the second one, each from the form that the one before has
left. -/
inductive Traced : Form → List Call → Form → Prop
  | nil (form : Form) : Traced form [] form
  | cons {c : Call} {cs : List Call} {form' : Form} (h : Traced c.outcome.form cs form') :
      Traced c.form (c :: cs) form'

theorem Traced.append {form mid form' : Form} {cs cs' : List Call} (h : Traced form cs mid)
    (h' : Traced mid cs' form') : Traced form (cs ++ cs') form' := by
  induction h with
  | nil => exact h'
  | cons _ ih => exact .cons (ih h')

/-- What differs at the end was changed by one of the calls. -/
theorem Traced.exists_of_ne {form form' : Form} {cs : List Call} {name : String}
    (h : Traced form cs form') (hne : form'.get? name ≠ form.get? name) :
    ∃ c ∈ cs, c.outcome.form.get? name ≠ c.form.get? name := by
  induction h with
  | nil => exact absurd rfl hne
  | @cons c cs form' h ih =>
    by_cases hc : c.outcome.form.get? name = c.form.get? name
    · rw [← hc] at hne
      obtain ⟨c', hc', hchange⟩ := ih hne
      exact ⟨c', List.mem_cons_of_mem c hc', hchange⟩
    · exact ⟨c, List.mem_cons_self, hc⟩

namespace Registry

namespace Turn

/-- The calls of a turn. The second box of a pair is called if the first one succeeds. -/
def calls (form : Form) (q : Query) : Turn → List Call
  | single e => [⟨e, form, form, q⟩]
  | pair first second =>
    let left : Call := ⟨first, form, form, .empty⟩
    match left.outcome.result with
    | .ok () => [left, ⟨second, form, left.outcome.form, .empty⟩]
    | .error _ => [left]

/-- The calls of a run. -/
def runCalls (form : Form) (q : Query) : List Turn → List Call
  | [] => []
  | t :: ts =>
    let o := t.call form q
    t.calls form q ++
      match o.result with
      | .ok () => runCalls o.form o.query ts
      | .error _ => []

theorem reports_call (t : Turn) (form : Form) (q : Query) :
    form.Reports (t.call form q).form (isRefusal (t.call form q).result) := by
  cases t with
  | single e => exact Box.reports_call _ form q _
  | pair first second => exact Conjunction.reports_call form q _ _

/-- **A run reports the error that ends it, and nothing else.** -/
theorem reports_run (ts : List Turn) (form : Form) (q : Query) :
    form.Reports (run form q ts).form (isRefusal (run form q ts).result) := by
  induction ts generalizing form q with
  | nil => exact .refl form
  | cons t ts ih =>
    have hturn := t.reports_call form q
    cases hresult : (t.call form q).result with
    | error e =>
      rw [run_cons_of_error ts hresult]
      exact hturn
    | ok _ =>
      rw [run_cons_of_ok ts hresult]
      rw [hresult] at hturn
      exact hturn.trans (ih _ _)

theorem traced_call (t : Turn) (form : Form) (q : Query) :
    Traced form (t.calls form q) (t.call form q).form := by
  cases t with
  | single e => exact .cons (c := ⟨e, form, form, q⟩) (.nil _)
  | pair first second =>
    let left : Call := ⟨first, form, form, .empty⟩
    let right : Call := ⟨second, form, left.outcome.form, .empty⟩
    cases hleft : left.outcome.result with
    | error e =>
      have hcalls : (pair first second).calls form q = [left] := by
        simp only [calls, left] at hleft ⊢
        rw [hleft]
      rw [hcalls, call, (Conjunction.call_of_first_error _ _ hleft).1]
      exact .cons (c := left) (.nil _)
    | ok _ =>
      have hcalls : (pair first second).calls form q = [left, right] := by
        simp only [calls, left, right] at hleft ⊢
        rw [hleft]
      rw [hcalls, call, (Conjunction.call_of_first_ok _ _ hleft rfl).1]
      exact .cons (c := left) (.cons (c := right) (.nil _))

theorem traced_run (ts : List Turn) (form : Form) (q : Query) :
    Traced form (runCalls form q ts) (run form q ts).form := by
  induction ts generalizing form q with
  | nil => exact .nil form
  | cons t ts ih =>
    have hturn := t.traced_call form q
    cases hresult : (t.call form q).result with
    | error e =>
      rw [run_cons_of_error ts hresult, runCalls]
      simpa only [hresult, List.append_nil] using hturn
    | ok _ =>
      rw [run_cons_of_ok ts hresult, runCalls]
      simpa only [hresult] using hturn.append (ih _ _)

end Turn

variable (r : Registry) (form : Form)

/-- The calls of the boxes while the form is compiled, in their order. -/
def calls : List Call := Turn.runCalls form .empty r.turns

theorem reports_compile : form.Reports (r.compile form).1 (isRefusal (r.compile form).2) := by
  have hrun := Turn.reports_run r.turns form .empty
  rw [compile_eq_run]
  show form.Reports _ (isRefusal (Except.map _ _))
  rw [isRefusal_map]
  exact hrun

/-- The calls account for the form that a compilation leaves. -/
theorem traced_compile : Traced form (r.calls form) (r.compile form).1 := by
  rw [compile_eq_run]
  exact Turn.traced_run r.turns form .empty

/-- **A text changes only where its own box was called, succeeded and echoes.** -/
theorem exists_call_of_get?_ne {name : String}
    (h : (r.compile form).1.get? name ≠ form.get? name) :
    ∃ c ∈ r.calls form, c.entry.name = name ∧ c.outcome.result = .ok () ∧
      c.box.policy.echoes = true := by
  obtain ⟨c, hc, hne⟩ := (r.traced_compile form).exists_of_ne h
  exact ⟨c, hc, Call.of_get?_outcome_ne hne⟩

end Registry

/-! ### On the command line -/

namespace CommandLine

variable {c : Config} {r : Registry} {compact : Bool} {form form' : Form} {e : Error}

/-- A form that compiles gives no error output. -/
theorem err_report_of_ok {q : Query} (h : r.compile form = (form', .ok q)) :
    (report c r compact form).err = "" := by
  simp only [report, h]

/-- A marked form is abandoned, after what was flashed into it. -/
theorem err_report_of_marked (h : r.compile form = (form', .error e)) {message : String}
    (hmark : form'.marked = true) (hflashes : form'.flashes = [message]) :
    (report c r compact form).err =
      message ++ "\nError: Search abandoned: " ++ e.message ++ "\n" := by
  simp only [report, h, hmark, hflashes, if_true, failure]
  simp [← String.toList_inj]

/-- Without a mark the form itself is to blame. -/
theorem err_report_of_not_marked (h : r.compile form = (form', .error e))
    (hmark : form'.marked = false) :
    (report c r compact form).err =
      "Error: Search form is misconfigured: " ++ e.message ++ "\n" := by
  simp only [report, h, hmark, Bool.false_eq_true, if_false, failure]
  simp [← String.toList_inj]

end CommandLine

namespace Registry

/-- **Errors are reported exactly once.** Let a form without messages and mark be compiled. If that
succeeds, there are none afterwards. An error of the user has flashed one message and set the mark,
and any other error has done neither, so the command line tells the two apart. In all cases the form
has the same boxes in the same order, and a text is another one only where the box itself echoes and
was called with success. -/
theorem compile_reports_once (r : Registry) {form : Form} (hflashes : form.flashes = [])
    (hmark : form.marked = false) (c : Config) (compact : Bool) :
    let form' := (r.compile form).1
    let output := CommandLine.report c r compact form
    (match (r.compile form).2 with
      | .ok _ => form'.flashes = [] ∧ form'.marked = false ∧ output.err = ""
      | .error e =>
        if e.isInput then
          ∃ message, form'.flashes = [message] ∧ form'.marked = true ∧
            output.err = message ++ "\nError: Search abandoned: " ++ e.message ++ "\n"
        else
          form'.flashes = [] ∧ form'.marked = false ∧
            output.err = "Error: Search form is misconfigured: " ++ e.message ++ "\n") ∧
    form'.values.keys = form.values.keys ∧
    ∀ name, form'.get? name ≠ form.get? name →
      ∃ call ∈ r.calls form, call.entry.name = name ∧ call.outcome.result = .ok () ∧
        call.box.policy.echoes = true := by
  intro form' output
  obtain ⟨hkeys, ⟨messages, hmessages, hlen⟩, hmarked⟩ := r.reports_compile form
  refine ⟨?_, hkeys, fun name => r.exists_call_of_get?_ne form⟩
  rw [hflashes, List.nil_append] at hmessages
  rw [hmark, Bool.false_or] at hmarked
  cases hresult : (r.compile form).2 with
  | ok q =>
    have hcompile : r.compile form = (form', .ok q) := Prod.ext rfl hresult
    rw [hresult] at hmarked hlen
    have hnil : messages = [] := List.length_eq_zero_iff.1 hlen
    exact ⟨hmessages.trans hnil, hmarked, CommandLine.err_report_of_ok hcompile⟩
  | error e =>
    have hcompile : r.compile form = (form', .error e) := Prod.ext rfl hresult
    rw [hresult, isRefusal] at hmarked hlen
    simp only
    split
    · rename_i hinput
      rw [hinput] at hmarked hlen
      obtain ⟨message, rfl⟩ := List.length_eq_one_iff.1 hlen
      exact ⟨message, hmessages, hmarked,
        CommandLine.err_report_of_marked hcompile hmarked hmessages⟩
    · rename_i hinput
      rw [Bool.eq_false_iff.2 hinput] at hmarked hlen
      have hnil : messages = [] := List.length_eq_zero_iff.1 hlen
      exact ⟨hmessages.trans hnil, hmarked,
        CommandLine.err_report_of_not_marked hcompile hmarked⟩

/-- The first box of a pair has echoed its text when the second one refuses another. -/
theorem compile_reports_once_pair :
    let box (name : String) : Entry :=
      { name, kind := .integers, key := name, label := none, source := .fixed .integers }
    let r : Registry := { entries := [box "a", box "b"], pairs := [("a", box "b")] }
    let form : Form := .ofList [("a", " 1 .. 2"), ("b", "x")]
    let form' := (r.compile form).1
    (r.compile form).2 = .error (.rejected Span.hint) ∧
      (∃ message, form'.flashes = [message] ∧ form'.marked = true) ∧
      form'.values.keys = ["a", "b"] ∧ form'.get? "a" = some "1-2" ∧
      ∃ call ∈ r.calls form, call.entry.name = "a" ∧ call.outcome.result = .ok () := by
  intro box r form form'
  have hresult : (r.compile form).2 = .error (.rejected Span.hint) := rfl
  have ha : form'.get? "a" = some "1-2" := by decide +kernel
  obtain ⟨hreport, hkeys, hcalls⟩ :=
    @compile_reports_once r form rfl rfl { fields := [] } false
  rw [hresult] at hreport
  obtain ⟨message, hflashes, hmark, -⟩ := hreport
  obtain ⟨call, hcall, hname, hok, -⟩ := hcalls "a" (by rw [ha]; decide)
  exact ⟨hresult, ⟨message, hflashes, hmark⟩, hkeys, ha, call, hcall, hname, hok⟩

end Registry

end SearchBox
