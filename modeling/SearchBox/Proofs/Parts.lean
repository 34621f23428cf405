import SearchBox.Proofs.Pieces
import SearchBox.Proofs.Refusal

/-!
# Parts that were joined with commas

A sequence is typed as parts with commas between them, and a part is a bare token or a group in
brackets (`IsPart`). A comma inside of a group does not end it: the groups are found first, from the
left, and only what lies between them is cut at commas. So the parts come back from the text that
they make (`parts_joined`), and the box of a sequence compiles several parts to the alternatives that
the parts compile to one by one (`Box.call_joinedParts`).
-/

namespace SearchBox

open Text

/-! ### Groups -/

namespace Token

variable {before inside cs : List Char}

theorem opensBracket_of_not_mem (h : '[' ∉ cs) : opensBracket cs = false := by
  unfold opensBracket
  split
  · exact absurd List.mem_cons_self h
  · rfl

theorem splitGroups_of_not_mem (h : '[' ∉ cs) : splitGroups cs = [cs] := by
  unfold splitGroups
  split
  · rfl
  · rename_i hopen
    rw [cut_eq_none.2 h] at hopen
    cases hopen

/-- The first group begins at the first bracket that opens, and ends at the first one behind it that
closes. -/
theorem splitGroups_group (hbefore : '[' ∉ before) (hinside : ']' ∉ inside) (after : List Char) :
    splitGroups (before ++ ('[' :: (inside ++ [']']) ++ after)) =
      before :: ('[' :: (inside ++ [']'])) :: splitGroups after := by
  have hopen : cut '[' (before ++ ('[' :: (inside ++ [']']) ++ after)) =
      some (before, inside ++ ']' :: after) := by
    rw [List.cons_append, cut_append_cons hbefore, List.append_assoc]
    rfl
  have hclose : cut ']' (inside ++ ']' :: after) = some (inside, after) :=
    cut_append_cons hinside after
  rw [splitGroups]
  split
  · rename_i hnone
    rw [hopen] at hnone
    cases hnone
  · rename_i hsome
    cases hopen.symm.trans hsome
    split
    · rename_i hnone
      rw [hclose] at hnone
      cases hnone
    · rename_i hsome'
      cases hclose.symm.trans hsome'
      rfl

end Token

/-! ### Parts -/

namespace Sequence

/-- A part as it is typed: a bare token, or a group. Nothing in it is cleaned away. -/
inductive IsPart : List Char → Prop
  | token {cs : List Char} (hne : cs ≠ []) (hfree : ∀ c ∈ [',', '[', ']'], c ∉ cs)
    (hclean : ∀ c ∈ cs, Cleaning.isStripped false c = false) : IsPart cs
  | group {inside : List Char} (hclose : ']' ∉ inside)
    (hclean : ∀ c ∈ inside, Cleaning.isStripped false c = false) :
    IsPart ('[' :: (inside ++ [']']))

variable {cs part : List Char} {ps : List (List Char)}

theorem IsPart.ne_nil (h : IsPart part) : part ≠ [] := by
  cases h with
  | token hne _ _ => exact hne
  | group _ _ => exact List.cons_ne_nil _ _

theorem IsPart.isStripped_of_mem (h : IsPart part) {c : Char} (hc : c ∈ part) :
    Cleaning.isStripped false c = false := by
  cases h with
  | token _ _ hclean => exact hclean c hc
  | group _ hclean =>
    rw [List.mem_cons, List.mem_append, List.mem_singleton] at hc
    rcases hc with rfl | hc | rfl
    · rfl
    · exact hclean c hc
    · rfl

theorem IsPart.checkSpaces (h : IsPart part) : Cleaning.checkSpaces part = .ok () :=
  Cleaning.checkSpaces_of_not_blank fun _ hc =>
    (Cleaning.isStripped_eq_false (h.isStripped_of_mem hc)).2.2

/-! ### Parts of a joined text -/

@[simp] theorem plainParts_nil : plainParts [] = [] := rfl

theorem plainParts_append (a b : List Char) :
    plainParts (a ++ ',' :: b) = plainParts a ++ plainParts b := by
  rw [plainParts, pieces_append, List.map_append, List.filter_append]
  rfl

theorem plainParts_token (hne : cs ≠ []) (hcomma : ',' ∉ cs) (hblank : ∀ c ∈ cs, isBlank c = false) :
    plainParts cs = [cs] := by
  have hfilter : [cs].filter (fun p => !p.isEmpty) = [cs] :=
    List.filter_cons_of_pos (by simpa using hne)
  rw [plainParts, pieces_of_not_mem hcomma, List.map_singleton, trim_of_not_blank hblank, hfilter]

theorem parts_of_not_mem (h : '[' ∉ cs) : parts cs = plainParts cs := by
  rw [parts, Token.splitGroups_of_not_mem h, List.flatMap_singleton,
    Token.opensBracket_of_not_mem h]
  rfl

theorem parts_group {before inside : List Char} (hbefore : '[' ∉ before) (hinside : ']' ∉ inside)
    (after : List Char) :
    parts (before ++ ('[' :: (inside ++ [']']) ++ after)) =
      plainParts before ++ ('[' :: (inside ++ [']'])) :: parts after := by
  have hplain := parts_of_not_mem hbefore
  rw [parts, Token.splitGroups_of_not_mem hbefore, List.flatMap_singleton] at hplain
  rw [parts, Token.splitGroups_group hbefore hinside, List.flatMap_cons, hplain, List.flatMap_cons]
  rfl

/-- Parts with a comma in front of each, behind a text in which no bracket opens. -/
theorem parts_flatMap (hps : ∀ p ∈ ps, IsPart p) {before : List Char} (hbefore : '[' ∉ before) :
    parts (before ++ ps.flatMap (',' :: ·)) = plainParts before ++ ps := by
  induction ps generalizing before with
  | nil => simpa using parts_of_not_mem hbefore
  | cons p ps ih =>
    rw [List.forall_mem_cons] at hps
    obtain ⟨hp, hps⟩ := hps
    rw [List.flatMap_cons]
    cases hp with
    | token hne hfree hclean =>
      -- A token is passed over like the text before it, up to the next group.
      have hopen : '[' ∉ before ++ ',' :: p := by
        have hp := hfree '[' (by simp)
        simp [hbefore, hp]
      have htoken : plainParts p = [p] := plainParts_token hne (hfree ',' (by simp))
        fun c hc => (Cleaning.isStripped_eq_false (hclean c hc)).2.2
      rw [← List.append_assoc, ih hps hopen, plainParts_append, htoken, List.append_assoc]
      rfl
    | @group inside hclose hclean =>
      have hopen : '[' ∉ before ++ [','] := by simp [hbefore]
      have hcomma : plainParts (before ++ [',']) = plainParts before := by
        rw [plainParts_append, plainParts_nil, List.append_nil]
      have hrest : parts (ps.flatMap (',' :: ·)) = ps := ih hps (List.not_mem_nil (a := '['))
      rw [List.cons_append, List.append_cons, parts_group hopen hclose, hcomma, hrest]

/-- **The parts of a sequence come back from the text that they make.** -/
theorem parts_joined (hps : ∀ p ∈ ps, IsPart p) : parts (joined ',' ps) = ps := by
  cases ps with
  | nil => exact parts_of_not_mem List.not_mem_nil
  | cons p ps =>
    rw [List.forall_mem_cons] at hps
    obtain ⟨hp, hps⟩ := hps
    rw [joined_cons]
    cases hp with
    | token hne hfree hclean =>
      have htoken : plainParts p = [p] := plainParts_token hne (hfree ',' (by simp))
        fun c hc => (Cleaning.isStripped_eq_false (hclean c hc)).2.2
      rw [parts_flatMap hps (hfree '[' (by simp)), htoken]
      rfl
    | group hclose hclean =>
      have hrest : parts (ps.flatMap (',' :: ·)) = ps :=
        parts_flatMap hps (List.not_mem_nil (a := '['))
      have hgroup := parts_group (List.not_mem_nil (a := '[')) hclose (ps.flatMap (',' :: ·))
      rwa [hrest] at hgroup

theorem IsPart.parts_eq (h : IsPart part) : parts part = [part] := by
  have hparts := parts_joined (List.forall_mem_singleton.2 h)
  rwa [joined, List.intercalate_singleton] at hparts

/-- Nothing of a joined text is cleaned away. -/
theorem isStripped_of_mem_joined (hps : ∀ p ∈ ps, IsPart p) {c : Char} (hc : c ∈ joined ',' ps) :
    Cleaning.isStripped false c = false := by
  rcases mem_joined hc with rfl | ⟨p, hp, hc⟩
  · rfl
  · exact (hps p hp).isStripped_of_mem hc

/-- Compiles every part of a text for itself, and merges what comes of them. -/
def byParts (compilePart : String → List Char → Except Error Query) : Compile :=
  fun text context => absorb (compilePart context.key) (parts text)

end Sequence

/-! ### Boxes of sequences -/

/-- The kinds whose text is a list of parts. -/
inductive Kind.IsSequence : Kind → Prop
  | leading (l : Sequence.Leading) : IsSequence (.leading l)
  | beginning (b : Sequence.Beginning) : IsSequence (.beginning b)

theorem Kind.IsSequence.exists_byParts {k : Kind} (hk : k.IsSequence) :
    k.policy = {} ∧ ∃ compilePart, k.compile = Sequence.byParts compilePart := by
  cases hk with
  | leading l => exact ⟨rfl, l.compilePart, rfl⟩
  | beginning b => exact ⟨rfl, b.compilePart, rfl⟩

namespace Box

variable {b : Box} {form : Form} {q : Query} {args : Arguments} {field raw : String}
  {compilePart : String → List Char → Except Error Query}

section ByParts

variable (hb : b.compile = Sequence.byParts compilePart)
  (ht : b.typed? form args = some (field, raw))

include hb ht

theorem byParts_eq_ok {d : Query} :
    (b.call form q args).result = .ok () ∧ (b.call form q args).query = d ↔
      Cleaning.checkSpaces raw.toList = .ok () ∧
        ∃ ss, (Sequence.parts (b.policy.prepare raw.toList)).mapM
            (compilePart (b.contextOf args field).key) = .ok ss ∧
          Sequence.gathered q ss = d := by
  rw [call_iff ht, hb, Sequence.byParts, Sequence.absorb_eq_ok]

theorem byParts_eq_error (hspaces : Cleaning.checkSpaces raw.toList = .ok ()) {e : Error} :
    (b.call form q args).result = .error e ↔
      (Sequence.parts (b.policy.prepare raw.toList)).mapM
        (compilePart (b.contextOf args field).key) = .error e := by
  rw [result_eq_error_iff ht hspaces, hb, Sequence.byParts, Sequence.absorb_eq_error]

omit ht in
theorem byParts_query_of_error {e : Error} (h : (b.call form q args).result = .error e) :
    (b.call form q args).query = q :=
  query_call_of_error (hb ▸ fun _ _ => Sequence.isAtomic_absorb _ _) h

/-- A single part makes of the query what it compiles to, merged into it. -/
theorem singlePart_iff (hspaces : Cleaning.checkSpaces raw.toList = .ok ()) {part : List Char}
    (hpart : Sequence.parts (b.policy.prepare raw.toList) = [part]) :
    (∀ d, (b.call form q args).result = .ok () ∧ (b.call form q args).query = d ↔
      ∃ s, compilePart (b.contextOf args field).key part = .ok s ∧ q.update s = d) ∧
    ∀ e, (b.call form q args).result = .error e ↔
      compilePart (b.contextOf args field).key part = .error e := by
  refine ⟨fun d => ?_, fun e => ?_⟩
  · rw [byParts_eq_ok hb ht, and_iff_right hspaces, hpart, List.mapM_cons]
    cases compilePart (b.contextOf args field).key part <;>
      simp [Sequence.gathered, bind, Except.bind, pure, Except.pure]
  · rw [byParts_eq_error hb ht hspaces, hpart, List.mapM_cons]
    cases compilePart (b.contextOf args field).key part <;>
      simp [bind, Except.bind, pure, Except.pure]

end ByParts

section JoinedParts

variable (hb : b.compile = Sequence.byParts compilePart) (hpolicy : b.policy = {})

include hpolicy in
theorem prepare_eq_stripped (cs : List Char) : b.policy.prepare cs = Cleaning.stripped false cs := by
  have hcleans : b.policy.Cleans := hpolicy ▸ ⟨rfl, rfl⟩
  rw [hcleans.prepare_eq, hpolicy]
  rfl

include hpolicy in
theorem parts_prepare_joined {ps : List (List Char)} (hps : ∀ p ∈ ps, Sequence.IsPart p) :
    Sequence.parts (b.policy.prepare (joined ',' ps)) = ps := by
  have hclean := Cleaning.stripped_of_not_mem fun _ => Sequence.isStripped_of_mem_joined hps
  rw [prepare_eq_stripped hpolicy, hclean, Sequence.parts_joined hps]

include hpolicy in
theorem parts_prepare_part {part : List Char} (hpart : Sequence.IsPart part) :
    Sequence.parts (b.policy.prepare part) = [part] := by
  rw [prepare_eq_stripped hpolicy, Cleaning.stripped_of_not_mem fun _ => hpart.isStripped_of_mem,
    hpart.parts_eq]

theorem checkSpaces_joined {ps : List (List Char)} (hps : ∀ p ∈ ps, Sequence.IsPart p) :
    Cleaning.checkSpaces (joined ',' ps) = .ok () :=
  Cleaning.checkSpaces_of_not_blank fun _ hc =>
    (Cleaning.isStripped_eq_false (Sequence.isStripped_of_mem_joined hps hc)).2.2

include hb hpolicy

/-- Parts that were joined are compiled one by one. -/
theorem joinedParts_iff {ps : List (List Char)} (hps : ∀ p ∈ ps, Sequence.IsPart p)
    (ht : b.typed? form args = some (field, raw)) (hraw : raw.toList = joined ',' ps) :
    (∀ d, (b.call form q args).result = .ok () ∧ (b.call form q args).query = d ↔
      ∃ ss, ps.mapM (compilePart (b.contextOf args field).key) = .ok ss ∧
        Sequence.gathered q ss = d) ∧
    ∀ e, (b.call form q args).result = .error e ↔
      ps.mapM (compilePart (b.contextOf args field).key) = .error e := by
  have hspaces : Cleaning.checkSpaces raw.toList = .ok () := hraw ▸ checkSpaces_joined hps
  have hparts : Sequence.parts (b.policy.prepare raw.toList) = ps :=
    hraw ▸ parts_prepare_joined hpolicy hps
  refine ⟨fun d => ?_, fun e => ?_⟩
  · rw [byParts_eq_ok hb ht, hparts, and_iff_right hspaces]
  · rw [byParts_eq_error hb ht hspaces, hparts]

/-- A part that is typed alone makes of the empty query what it compiles to. -/
theorem lonePart_iff {part : List Char} (hpart : Sequence.IsPart part)
    (hfield : b.field? args = some field) (form : Form) :
    let o := b.call (form.set field (String.ofList part)) .empty args
    (∀ s, o.result = .ok () ∧ o.query = s ↔
      compilePart (b.contextOf args field).key part = .ok s) ∧
    ∀ e, o.result = .error e ↔ compilePart (b.contextOf args field).key part = .error e := by
  have hspaces : Cleaning.checkSpaces (String.ofList part).toList = .ok () := by
    rw [String.toList_ofList]
    exact hpart.checkSpaces
  have hparts : Sequence.parts (b.policy.prepare (String.ofList part).toList) = [part] := by
    rw [String.toList_ofList]
    exact parts_prepare_part hpolicy hpart
  have hempty : (String.ofList part).isEmpty = false := by
    simpa [String.isEmpty_eq_false_iff] using hpart.ne_nil
  have ht := typed?_eq_some.2 ⟨hfield, Form.get?_set_self form field _, hempty⟩
  simpa only [Query.empty_update, exists_eq_right] using
    singlePart_iff (q := .empty) hb ht hspaces hparts

end JoinedParts

/-- **A sequence is compiled part by part.** Let two parts or more, each a bare token or a group, be
joined with commas and typed into the box of a sequence, of either kind and with whatever options.
Let a part alone be the same call with nothing but that part typed, on the empty query. The parts are
accepted if and only if each of them is accepted alone, and then the query gets for alternatives, in
order, what the parts make alone. They are refused if and only if a part is refused alone, with the
error of the first such part, and the query stays as it was. -/
theorem call_joinedParts {k : Kind} (hk : k.IsSequence) {ps : List (List Char)}
    (hlength : 2 ≤ ps.length) (hps : ∀ p ∈ ps, Sequence.IsPart p)
    (ht : k.box.typed? form args = some (field, raw)) (hraw : raw.toList = joined ',' ps) :
    let alone (p : List Char) := k.box.call (form.set field (String.ofList p)) .empty args
    let out := k.box.call form q args
    (∀ d, out.result = .ok () ∧ out.query = d ↔
      ∃ ss, List.Forall₂ (fun p s => (alone p).result = .ok () ∧ (alone p).query = s) ps ss ∧
        q.setAlternatives ss = d) ∧
    ∀ e, (out.result = .error e ↔
        ∃ before p after, ps = before ++ p :: after ∧
          (∀ p' ∈ before, (alone p').result = .ok ()) ∧ (alone p).result = .error e) ∧
      (out.result = .error e → out.query = q) := by
  intro alone out
  obtain ⟨hpolicy, compilePart, hb⟩ := hk.exists_byParts
  let compileOne := compilePart (k.box.contextOf args field).key
  obtain ⟨hok, herror⟩ := joinedParts_iff (b := k.box) (q := q) hb hpolicy hps ht hraw
  have hlone {p : List Char} (hp : p ∈ ps) := lonePart_iff (b := k.box) hb hpolicy (hps p hp)
    (typed?_eq_some.1 ht).1 form
  have haccepted {p : List Char} (hp : p ∈ ps) :
      (∃ s, compileOne p = .ok s) ↔ (alone p).result = .ok () := by
    constructor
    · rintro ⟨s, hs⟩
      exact (((hlone hp).1 s).2 hs).1
    · exact fun h => ⟨_, ((hlone hp).1 _).1 ⟨h, rfl⟩⟩
  have hmembers (ss : List Query) : ps.mapM compileOne = .ok ss ↔
      List.Forall₂ (fun p s => (alone p).result = .ok () ∧ (alone p).query = s) ps ss := by
    constructor
    · intro h
      refine ((List.forall₂_and_left _ _).2 ⟨fun _ hp => hp, forall₂_of_mapM h⟩).imp ?_
      exact fun p s hp => ((hlone hp.1).1 s).2 hp.2
    · intro h
      refine mapM_of_forall₂ (((List.forall₂_and_left _ _).2 ⟨fun _ hp => hp, h⟩).imp ?_)
      exact fun p s hp => ((hlone hp.1).1 s).1 hp.2
  refine ⟨fun d => (hok d).trans (exists_congr fun ss => ?_),
    fun e => ⟨(herror e).trans ?_, byParts_query_of_error hb⟩⟩
  · rw [hmembers]
    refine and_congr_right fun hss => ?_
    rw [Sequence.gathered_of_two_le q (hss.length_eq ▸ hlength)]
  · rw [mapM_eq_error]
    constructor
    · rintro ⟨before, p, after, rfl, hbefore, hp⟩
      refine ⟨before, p, after, rfl, fun p' hp' => ?_, ((hlone (by simp)).2 e).2 hp⟩
      exact (haccepted (List.mem_append_left _ hp')).1 (hbefore p' hp')
    · rintro ⟨before, p, after, rfl, hbefore, hp⟩
      refine ⟨before, p, after, rfl, fun p' hp' => ?_, ((hlone (by simp)).2 e).1 hp⟩
      exact (haccepted (List.mem_append_left _ hp')).2 (hbefore p' hp')

/-- A group with an interval and a bare token, and a token with two parts behind it that are refused,
the first one since an element of it has no text. -/
theorem call_joinedParts_groups :
    let leading : Sequence.Leading := ⟨1, .integer⟩
    let beginning : Sequence.Beginning := { firstField := some "first" }
    let form := Form.ofList [("a", "[1,2-4],7"), ("b", "7,[1,,2],[x]")]
    let taken := ["[1,2-4]".toList, "7".toList]
    let refused := ["7".toList, "[1,,2]".toList, "[x]".toList]
    let asked : List Constraint :=
      [.value (.integer 1), .range (some (.integer 2)) (some (.integer 4))]
    let a := (Kind.leading leading).box.call form .empty { field := some "a" }
    let b := (Kind.beginning beginning).box.call form .empty { field := some "b" }
    ((∀ p ∈ taken, Sequence.IsPart p) ∧ ∀ p ∈ refused, Sequence.IsPart p) ∧
    (joined ',' taken = "[1,2-4],7".toList ∧ joined ',' refused = "7,[1,,2],[x]".toList) ∧
    (a.result = .ok () ∧ a.query = .anyOf [leading.ofConstraints "a" asked,
      .single "a.1" (.value (.integer 7))]) ∧
    (b.result = .error (.rejected Sequence.Beginning.emptyMessage) ∧ b.query = .empty) := by
  intro leading beginning form taken refused asked a b
  have hseven : Sequence.IsPart "7".toList := .token (by simp) (by simp) (by simp; decide)
  have htaken : ∀ p ∈ taken, Sequence.IsPart p := by
    have hgroup : Sequence.IsPart "[1,2-4]".toList :=
      @Sequence.IsPart.group "1,2-4".toList (by simp) (by simp; decide)
    simpa [taken] using ⟨hgroup, hseven⟩
  have hrefused : ∀ p ∈ refused, Sequence.IsPart p := by
    have hempty : Sequence.IsPart "[1,,2]".toList :=
      @Sequence.IsPart.group "1,,2".toList (by simp) (by simp; decide)
    have hletter : Sequence.IsPart "[x]".toList :=
      @Sequence.IsPart.group "x".toList (by simp) (by simp; decide)
    simpa [refused] using ⟨hseven, hempty, hletter⟩
  have hjoined : joined ',' taken = "[1,2-4],7".toList ∧
      joined ',' refused = "7,[1,,2],[x]".toList := ⟨by decide, by decide⟩
  have hfield : (Kind.leading leading).box.field? { field := some "a" } = some "a" := rfl
  have hfield' : (Kind.beginning beginning).box.field? { field := some "b" } = some "b" := rfl
  have ht : (Kind.leading leading).box.typed? form { field := some "a" } =
      some ("a", "[1,2-4],7") := rfl
  have ht' : (Kind.beginning beginning).box.typed? form { field := some "b" } =
      some ("b", "7,[1,,2],[x]") := rfl
  obtain ⟨hok, -⟩ := call_joinedParts (q := .empty) (.leading leading) (by decide) htaken ht
    hjoined.1.symm
  obtain ⟨-, herror⟩ := call_joinedParts (q := .empty) (.beginning beginning) (by decide) hrefused ht'
    hjoined.2.symm
  have hlone {p : List Char} (hp : p ∈ taken) :=
    lonePart_iff (b := (Kind.leading leading).box) rfl rfl (htaken p hp) hfield form
  have hlone' {p : List Char} (hp : p ∈ refused) :=
    lonePart_iff (b := (Kind.beginning beginning).box) rfl rfl (hrefused p hp) hfield' form
  have hgroup := ((hlone (p := "[1,2-4]".toList) (by simp [taken])).1 _).2 rfl
  have htoken := ((hlone (p := "7".toList) (by simp [taken])).1 _).2 rfl
  have hrefuses := herror (.rejected Sequence.Beginning.emptyMessage)
  have hb := hrefuses.1.2 ⟨["7".toList], "[1,,2]".toList, ["[x]".toList], rfl,
    List.forall_mem_singleton.2 (((hlone' (by simp [refused])).1 _).2 rfl).1,
    ((hlone' (by simp [refused])).2 _).2 rfl⟩
  exact ⟨⟨htaken, hrefused⟩, hjoined, (hok _).2 ⟨_, .cons hgroup (.cons htoken .nil), rfl⟩, hb,
    hrefuses.2 hb⟩

end Box

end SearchBox
