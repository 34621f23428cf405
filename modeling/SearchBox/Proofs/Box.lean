import SearchBox.Proofs.Kind

/-!
# What a call of a box reads and writes

Of the form, a call reads one text, `Box.typed?`, and writes at most the text of the same field, the
flashed messages and the mark. So the query and the result are the same for two forms with the same
text (`call_congr`), and the other fields of the form keep their texts (`get?_call_of_ne`). Of the
query, a box that merges reads nothing as long as it shares no key with it (`Merges.call_update`).
-/

namespace SearchBox

namespace Form

theorem get?_set (f : Form) (field text other : String) :
    (f.set field text).get? other = if other = field then some text else f.get? other :=
  OrderedMap.get?_insert f.values field other text

/-- Putting back the text that stands there changes nothing. -/
theorem set_of_get?_eq_some {f : Form} {field text : String} (h : f.get? field = some text) :
    f.set field text = f := by
  unfold set
  rw [OrderedMap.insert_of_get?_eq_some h]

end Form

/-- A call that succeeded is its form and its query. -/
theorem Outcome.eq_of_result {o : Outcome} (h : o.result = .ok ()) :
    o = ⟨o.form, o.query, .ok ()⟩ := by
  rw [← h]

namespace Box

variable (b : Box) (form : Form) (q : Query) (args : Arguments)

/-- The field whose text a call compiles. -/
def field? : Option String := args.field <|> b.policy.field

/-- The field and the text that a call compiles, if the text is not empty. -/
def typed? : Option (String × String) :=
  match b.field? args with
  | none => none
  | some field =>
    match form.get? field with
    | none => none
    | some raw => if raw.isEmpty then none else some (field, raw)

/-- A call compiles what was typed, if anything was. -/
theorem call_eq :
    b.call form q args =
      match b.typed? form args with
      | none => ⟨form, q, .ok ()⟩
      | some (field, raw) => b.callOn form q args field raw := by
  unfold call typed? field?
  cases args.field <|> b.policy.field with
  | none => rfl
  | some field =>
    cases hraw : form.get? field with
    | none => simp [hraw]
    | some raw => cases hempty : raw.isEmpty <;> simp [hraw, hempty]

variable {b form q args}

theorem typed?_eq_some {field raw : String} :
    b.typed? form args = some (field, raw) ↔
      b.field? args = some field ∧ form.get? field = some raw ∧ raw.isEmpty = false := by
  constructor
  · intro h
    unfold typed? at h
    split at h
    · cases h
    · rename_i hfield
      split at h
      · cases h
      · rename_i hraw
        split at h
        · cases h
        · rename_i hempty
          cases h
          exact ⟨hfield, hraw, Bool.eq_false_iff.2 hempty⟩
  · rintro ⟨hfield, hraw, hempty⟩
    simp [typed?, hfield, hraw, hempty]

/-- What was typed depends on the text of one field only. -/
theorem typed?_congr {form' : Form}
    (h : ∀ field, b.field? args = some field → form.get? field = form'.get? field) :
    b.typed? form args = b.typed? form' args := by
  unfold typed?
  cases hf : b.field? args with
  | none => rfl
  | some field => simp only [h field hf]

theorem call_of_typed?_eq_none (h : b.typed? form args = none) :
    b.call form q args = ⟨form, q, .ok ()⟩ := by
  rw [call_eq, h]

theorem call_of_typed?_eq_some {field raw : String} (h : b.typed? form args = some (field, raw)) :
    b.call form q args = b.callOn form q args field raw := by
  rw [call_eq, h]

/-! ### What a call reads of the form -/

/-- **The query and the result of a call depend on the text of its field only.** -/
theorem call_congr {form' : Form} (h : b.typed? form args = b.typed? form' args) :
    (b.call form q args).query = (b.call form' q args).query ∧
      (b.call form q args).result = (b.call form' q args).result := by
  cases ht : b.typed? form args with
  | none => simp [call_of_typed?_eq_none ht, call_of_typed?_eq_none (h ▸ ht)]
  | some typed => simp [call_of_typed?_eq_some ht, call_of_typed?_eq_some (h ▸ ht), callOn]

/-- A call that succeeds makes the same query from another form with the same text. -/
theorem exists_call_congr {form' last : Form} {d : Query}
    (ht : b.typed? form args = b.typed? form' args) (h : b.call form q args = ⟨last, d, .ok ()⟩) :
    ∃ last', b.call form' q args = ⟨last', d, .ok ()⟩ := by
  obtain ⟨hquery, hresult⟩ := call_congr (q := q) ht
  rw [h] at hquery hresult
  exact ⟨_, hquery ▸ Outcome.eq_of_result hresult.symm⟩

/-! ### What a call writes to the form -/

theorem get?_settle_of_ne {field other name : String} {text : List Char}
    {result : Except Error Unit} (h : other ≠ field) :
    (b.settle form field name text result).get? other = form.get? other := by
  unfold settle
  split
  · split
    · rw [Form.get?_set, if_neg h]
    · rfl
  · split <;> rfl

/-- **A call leaves the texts of all other fields as they are.** -/
theorem get?_call_of_ne {other : String} (h : b.field? args ≠ some other) :
    (b.call form q args).form.get? other = form.get? other := by
  cases ht : b.typed? form args with
  | none => rw [call_of_typed?_eq_none ht]
  | some typed =>
    obtain ⟨field, raw⟩ := typed
    obtain ⟨hfield, -, -⟩ := typed?_eq_some.1 ht
    rw [call_of_typed?_eq_some ht]
    exact get?_settle_of_ne fun heq => h (heq ▸ hfield)

/-- A call does not change what was typed into the box of another field. -/
theorem typed?_call_of_ne {b' : Box} {args' : Arguments}
    (h : ∀ field, b.field? args = some field → b'.field? args' ≠ some field) :
    b'.typed? (b.call form q args).form args' = b'.typed? form args' :=
  typed?_congr fun field hf => get?_call_of_ne fun hf' => h field hf' hf

/-! ### Calls that succeed -/

variable (b args) in
/-- What the compile function learns about its box. -/
def contextOf (field : String) : Context where
  key := (args.key <|> b.policy.key).getD field
  name :=
    if b.policy.passesName then some ((args.name <|> b.policy.name).getD (Form.shownName field))
    else none

variable (b form) in
/-- The form after a text was compiled. -/
def echo (field : String) (text : List Char) : Form :=
  if b.policy.echoes then form.set field (String.ofList text) else form

/-- A text is compiled when it has no blanks between digits and its prepared form is accepted. -/
theorem callOn_eq_ok {field raw : String} {form' : Form} {q' : Query} :
    b.callOn form q args field raw = ⟨form', q', .ok ()⟩ ↔
      Cleaning.checkSpaces raw.toList = .ok () ∧
      b.compile (b.policy.prepare raw.toList) (b.contextOf args field) q = (q', .ok ()) ∧
      form' = b.echo form field (b.policy.prepare raw.toList) := by
  unfold callOn run contextOf echo settle
  cases Cleaning.checkSpaces raw.toList with
  | error e => simp
  | ok _ =>
    rcases hd : b.compile (b.policy.prepare raw.toList) (b.contextOf args field) q with ⟨d, result⟩
    unfold contextOf at hd
    simp only [hd, true_and]
    cases result with
    | error e => simp
    | ok _ =>
      rw [Outcome.mk.injEq, Prod.mk.injEq]
      constructor
      · rintro ⟨rfl, rfl, -⟩
        exact ⟨⟨rfl, rfl⟩, rfl⟩
      · rintro ⟨⟨rfl, -⟩, rfl⟩
        exact ⟨rfl, rfl, rfl⟩

/-- A call succeeds when nothing was typed, or when what was typed is compiled. -/
theorem call_eq_ok {form' : Form} {q' : Query} :
    b.call form q args = ⟨form', q', .ok ()⟩ ↔
      (b.typed? form args = none ∧ form' = form ∧ q' = q) ∨
      ∃ field raw, b.typed? form args = some (field, raw) ∧
        Cleaning.checkSpaces raw.toList = .ok () ∧
        b.compile (b.policy.prepare raw.toList) (b.contextOf args field) q = (q', .ok ()) ∧
        form' = b.echo form field (b.policy.prepare raw.toList) := by
  cases ht : b.typed? form args with
  | none => simp [call_of_typed?_eq_none ht, eq_comm]
  | some typed =>
    obtain ⟨field, raw⟩ := typed
    rw [call_of_typed?_eq_some ht, callOn_eq_ok]
    constructor
    · intro h
      exact .inr ⟨field, raw, rfl, h⟩
    · rintro (⟨hnone, -, -⟩ | ⟨field', raw', hsome, h⟩)
      · cases hnone
      · cases hsome
        exact h

/-- A call succeeds when the text has no blanks between digits and is compiled in its prepared
form. -/
theorem call_iff {field raw : String} (ht : b.typed? form args = some (field, raw)) {d : Query} :
    (b.call form q args).result = .ok () ∧ (b.call form q args).query = d ↔
      Cleaning.checkSpaces raw.toList = .ok () ∧
        b.compile (b.policy.prepare raw.toList) (b.contextOf args field) q = (d, .ok ()) := by
  rw [call_of_typed?_eq_some ht]
  constructor
  · rintro ⟨hok, rfl⟩
    obtain ⟨hspaces, hd, -⟩ := callOn_eq_ok.1 (Outcome.eq_of_result hok)
    exact ⟨hspaces, hd⟩
  · rintro ⟨hspaces, hd⟩
    rw [callOn_eq_ok.2 ⟨hspaces, hd, rfl⟩]
    exact ⟨rfl, rfl⟩

theorem result_eq_ok_iff {field raw : String} (ht : b.typed? form args = some (field, raw))
    (hspaces : Cleaning.checkSpaces raw.toList = .ok ()) {d : Query} :
    (b.call form q args).result = .ok () ∧ (b.call form q args).query = d ↔
      b.compile (b.policy.prepare raw.toList) (b.contextOf args field) q = (d, .ok ()) :=
  (call_iff ht).trans (and_iff_right hspaces)

/-- A text without blanks between digits is compiled in its prepared form. -/
theorem call_of_checkSpaces {field raw : String} (ht : b.typed? form args = some (field, raw))
    (hspaces : Cleaning.checkSpaces raw.toList = .ok ()) :
    (b.call form q args).query =
        (b.compile (b.policy.prepare raw.toList) (b.contextOf args field) q).1 ∧
      (b.call form q args).result =
        (b.compile (b.policy.prepare raw.toList) (b.contextOf args field) q).2 := by
  rw [call_of_typed?_eq_some ht]
  show (b.run raw.toList (b.contextOf args field) q).2.1 = _ ∧
    (b.run raw.toList (b.contextOf args field) q).2.2 = _
  rw [run, hspaces]
  exact ⟨rfl, rfl⟩

/-- A text without blanks between digits is refused when its prepared form is. -/
theorem result_eq_error_iff {field raw : String} (ht : b.typed? form args = some (field, raw))
    (hspaces : Cleaning.checkSpaces raw.toList = .ok ()) {e : Error} :
    (b.call form q args).result = .error e ↔
      (b.compile (b.policy.prepare raw.toList) (b.contextOf args field) q).2 = .error e := by
  rw [(call_of_checkSpaces ht hspaces).2]

/-- What a box reads that stores a value goes under its key, in place of what stood there. -/
theorem call_stored_iff {read : List Char → Except Error Scalar}
    (hb : b.compile = Kind.stored read) {field raw : String}
    (ht : b.typed? form args = some (field, raw)) {d : Query} :
    (b.call form q args).result = .ok () ∧ (b.call form q args).query = d ↔
      Cleaning.checkSpaces raw.toList = .ok () ∧
        ∃ v, read (b.policy.prepare raw.toList) = .ok v ∧
          q.insert (b.contextOf args field).key (.value v) = d := by
  rw [call_iff ht, hb, Kind.stored_eq_ok]

/-- The errors of a call are those of the check on spaces and of the compile function. -/
theorem failsOnly_call {P : Error → Prop} (hspaces : P (.malformed Cleaning.spacesMessage))
    (h : ∀ text context q, FailsOnly P (b.compile text context q).2) (form : Form) (q : Query)
    (args : Arguments) : FailsOnly P (b.call form q args).result := by
  rw [call_eq]
  split
  · exact .ok ()
  · rename_i field raw _
    show FailsOnly P (b.run raw.toList (b.contextOf args field) q).2.2
    unfold run Cleaning.checkSpaces
    cases Token.hasDigitGap raw.toList with
    | true => exact .error hspaces
    | false => exact h _ _ q

/-- **Whatever the user types, the box of a kind blames nobody else.** -/
theorem call_blamesUser {k : Kind} (hk : k.IsRegular) (p : Policy) (form : Form) (q : Query)
    (args : Arguments) :
    FailsOnly (·.isInput = true) (Box.call ⟨p, k.compile⟩ form q args).result := by
  refine failsOnly_call ?_ (Kind.compile_blamesUser hk) form q args
  rfl

theorem call_blamesUser_or_handsOn {k : Kind} (hk : k.UsesTable) (p : Policy) (form : Form)
    (q : Query) (args : Arguments) :
    FailsOnly (fun e => e.isInput = true ∨ k.HandsOn e)
      (Box.call ⟨p, k.compile⟩ form q args).result :=
  failsOnly_call (.inl rfl) (Kind.compile_blamesUser_or_handsOn hk) form q args

/-! ### What a call does to the query -/

/-- Whatever the text, what the box makes of the empty query is simple, and is merged into any query
that shares no key with it. -/
def Merges (b : Box) : Prop := ∀ text context, SearchBox.Merges (b.compile text context)

theorem merges_of_kind (p : Policy) (k : Kind) : Merges ⟨p, k.compile⟩ := k.compile_merges

theorem Merges.simple (hb : b.Merges) {form' : Form} {d : Query}
    (h : b.call form .empty args = ⟨form', d, .ok ()⟩) : d.Simple := by
  rcases call_eq_ok.1 h with ⟨-, -, rfl⟩ | ⟨field, raw, -, -, hd, -⟩
  · exact Query.simple_empty
  · exact (hb _ _ d hd).1

/-- **A call on a query that shares no key with the outcome merges the outcome into it.** -/
theorem Merges.call_update (hb : b.Merges) {form' : Form} {d : Query}
    (h : b.call form .empty args = ⟨form', d, .ok ()⟩) {q : Query} (hq : q.Disjoint d) :
    b.call form q args = ⟨form', q.update d, .ok ()⟩ := by
  rcases call_eq_ok.1 h with ⟨ht, rfl, rfl⟩ | ⟨field, raw, ht, hspaces, hd, hform⟩
  · rw [Query.update_empty]
    exact call_of_typed?_eq_none ht
  · exact call_eq_ok.2 (.inr ⟨field, raw, ht, hspaces, (hb _ _ d hd).2 q hq, hform⟩)

end Box

end SearchBox
