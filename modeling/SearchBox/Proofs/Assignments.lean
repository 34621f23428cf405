import SearchBox.Proofs.Box
import SearchBox.Proofs.Leading
import SearchBox.Proofs.Pieces

/-!
# Assignments to elements

The box of assignments writes while it reads: a piece is written before the next one is looked at.
So a fault leaves what stands before it, and nothing of what stands behind it
(`Box.call_assignments`). `Kind.Assigns` says which pieces are good and what they assign,
`Kind.Fault` what is wrong with the others and how the user is told. What is written for integers
with different indices is good, and the values are stored in the same order (`Box.call_written`).
-/

namespace SearchBox

open Text Number

namespace Kind

/-! ### One assignment -/

section Piece

variable (letters : String) (shift : Int) (read : Reader)

/-- The piece assigns a value to an element: its only equals sign has the letters and the index in
front of it, and the value behind it. The index fits, also when it is shifted. -/
inductive Assigns : List Char → Int × Scalar → Prop
  | intro {digits value : List Char} {n : Int} {v : Scalar}
    (honly : (letters.toList ++ digits ++ '=' :: value).count '=' = 1)
    (hn : Reader.readInteger digits = .ok n) (hfits : Fits (n + shift)) (hv : read value = .ok v) :
    Assigns (letters.toList ++ digits ++ '=' :: value) (n + shift, v)

/-- What is wrong with a piece that assigns nothing. The first fault from the left counts, but for a
missing or a second equals sign, which comes before all others. -/
inductive Fault : List Char → Error → Prop
  | sign {piece : List Char} (honly : piece.count '=' ≠ 1) :
    Fault piece (.rejected
      ("It must be a comma separated list of expressions of the form " ++ letters ++ "N=T"))
  | letters {name value : List Char} (honly : (name ++ '=' :: value).count '=' = 1)
    (hletters : ¬ letters.toList <+: name) :
    Fault (name ++ '=' :: value)
      (.rejected (String.ofList name ++ " does not start with " ++ letters))
  | index {digits value : List Char} {e : Error}
    (honly : (letters.toList ++ digits ++ '=' :: value).count '=' = 1)
    (he : Reader.readInteger digits = .error e) :
    Fault (letters.toList ++ digits ++ '=' :: value) e
  | range {digits value : List Char} {n : Int}
    (honly : (letters.toList ++ digits ++ '=' :: value).count '=' = 1)
    (hn : Reader.readInteger digits = .ok n) (hfits : ¬ Fits (n + shift)) :
    Fault (letters.toList ++ digits ++ '=' :: value)
      (.rejected
        ("The index in " ++ String.ofList (letters.toList ++ digits) ++ " is out of range"))
  | value {digits value : List Char} {n : Int} {e : Error}
    (honly : (letters.toList ++ digits ++ '=' :: value).count '=' = 1)
    (hn : Reader.readInteger digits = .ok n) (hfits : Fits (n + shift))
    (he : read value = .error e) :
    Fault (letters.toList ++ digits ++ '=' :: value) e

end Piece

theorem Assigns.count_equals {letters : String} {shift : Int} {read : Reader} {piece : List Char}
    {a : Int × Scalar} (h : Assigns letters shift read piece a) : piece.count '=' = 1 := by
  cases h with
  | intro honly => exact honly

/-- What follows the letters follows them in the text. -/
theorem dropLetters?_eq_some {ls cs rest : List Char} :
    dropLetters? ls cs = some rest ↔ cs = ls ++ rest := by
  induction ls generalizing cs with
  | nil => simp [dropLetters?]
  | cons l ls ih =>
    cases cs with
    | nil => simp [dropLetters?]
    | cons c cs =>
      unfold dropLetters?
      split
      · rename_i heq
        simp [heq, ih]
      · rename_i hne
        simp [Ne.symm hne]

theorem dropLetters?_eq_none {ls cs : List Char} : dropLetters? ls cs = none ↔ ¬ ls <+: cs := by
  constructor
  · rintro hnone ⟨rest, hrest⟩
    rw [dropLetters?_eq_some.2 hrest.symm] at hnone
    cases hnone
  · intro hprefix
    cases hdrop : dropLetters? ls cs with
    | none => rfl
    | some rest => exact absurd ⟨rest, (dropLetters?_eq_some.1 hdrop).symm⟩ hprefix

/-- An equals sign between two texts is the only one if the texts have none. -/
theorem count_equals_eq_one_iff {name value : List Char} :
    (name ++ '=' :: value).count '=' = 1 ↔ '=' ∉ name ∧ '=' ∉ value := by
  rw [List.count_append, List.count_cons_self, ← List.count_eq_zero, ← List.count_eq_zero]
  omega

section Clean

variable {letters : String} {shift : Int} {read : Reader} {piece : List Char}
  (hblank : ∀ c ∈ piece, isBlank c = false)

include hblank

theorem sides?_of_count {name value : List Char} (hpiece : piece = name ++ '=' :: value)
    (honly : piece.count '=' = 1) : sides? piece = some (name, value) := by
  rw [hpiece, count_equals_eq_one_iff] at honly
  rw [sides?, trim_of_not_blank hblank, hpiece, cut_append_cons honly.1]
  simp [honly.2]

theorem sides?_eq_none (honly : piece.count '=' ≠ 1) : sides? piece = none := by
  rw [sides?, trim_of_not_blank hblank]
  cases hcut : cut '=' piece with
  | none => rfl
  | some sides =>
    obtain ⟨hpiece, hname⟩ := cut_eq_some hcut
    rw [hpiece, ne_eq, count_equals_eq_one_iff, not_and, not_not] at honly
    simp [honly hname]

/-- Behind the letters, the index is read first, and then the value. -/
theorem readAssignment_of_letters {digits value : List Char}
    (hpiece : piece = letters.toList ++ digits ++ '=' :: value) (honly : piece.count '=' = 1) :
    readAssignment letters shift read piece =
      (Reader.readInteger digits).bind fun n =>
        match checked (n + shift) with
        | none =>
          .error (.rejected
            ("The index in " ++ String.ofList (letters.toList ++ digits) ++ " is out of range"))
        | some index => (read value).map fun v => (index, v) := by
  have hname : trim (letters.toList ++ digits) = letters.toList ++ digits :=
    trim_of_not_blank fun c hc => hblank c (hpiece ▸ List.mem_append_left _ hc)
  have hvalue : trim value = value :=
    trim_of_not_blank fun c hc => hblank c (by simp [hpiece, hc])
  generalize hread : readAssignment letters shift read piece = out
  rw [readAssignment, sides?_of_count hblank hpiece honly] at hread
  simp only [hname, hvalue, dropLetters?_eq_some.2 rfl] at hread
  exact hread.symm

theorem readAssignment_of_assigns {a : Int × Scalar} (h : Assigns letters shift read piece a) :
    readAssignment letters shift read piece = .ok a := by
  obtain ⟨honly, hn, hfits, hv⟩ := h
  rw [readAssignment_of_letters hblank rfl honly, hn]
  simp only [Except.bind, checked_eq_some.2 ⟨rfl, hfits⟩, hv]
  rfl

/-- What assigns nothing is refused for its fault. -/
theorem exists_fault (h : ¬ ∃ a, Assigns letters shift read piece a) :
    ∃ e, readAssignment letters shift read piece = .error e ∧
      Fault letters shift read piece e := by
  by_cases honly : piece.count '=' = 1
  · have hmem : '=' ∈ piece := List.count_pos_iff.1 (by omega)
    obtain ⟨name, value, hpiece⟩ := List.append_of_mem hmem
    by_cases hletters : letters.toList <+: name
    · obtain ⟨digits, rfl⟩ := hletters
      rw [readAssignment_of_letters hblank hpiece honly]
      subst hpiece
      cases hn : Reader.readInteger digits with
      | error e => exact ⟨e, rfl, .index honly hn⟩
      | ok n =>
        by_cases hfits : Fits (n + shift)
        · simp only [Except.bind, checked_eq_some.2 ⟨rfl, hfits⟩]
          cases hv : read value with
          | error e => exact ⟨e, rfl, .value honly hn hfits hv⟩
          | ok v => exact absurd ⟨_, .intro honly hn hfits hv⟩ h
        · have hchecked : checked (n + shift) = none := if_neg hfits
          simp only [Except.bind, hchecked]
          exact ⟨_, rfl, .range honly hn hfits⟩
    · have hname : trim name = name :=
        trim_of_not_blank fun c hc => hblank c (by simp [hpiece, hc])
      rw [readAssignment, sides?_of_count hblank hpiece honly]
      simp only [hname, dropLetters?_eq_none.2 hletters]
      subst hpiece
      exact ⟨_, rfl, .letters honly hletters⟩
  · rw [readAssignment, sides?_eq_none hblank honly]
    exact ⟨_, rfl, .sign honly⟩

end Clean

/-! ### One assignment after the other -/

/-- Different indices have different keys, so nothing is overwritten. -/
theorem entries_withAssignments {as : List (Int × Scalar)} (h : (as.map Prod.fst).Nodup)
    (key : String) : (withAssignments .empty key as).fields.entries = as.map (entryOf key) := by
  have hkeys : (as.map (entryOf key)).map Prod.fst =
      (as.map Prod.fst).map (Sequence.elementKey key) := by
    rw [List.map_map, List.map_map]
    rfl
  refine OrderedMap.entries_ofList ?_
  rw [hkeys]
  exact h.map (Sequence.elementKey_injective key)

/-- Good pieces are written before the rest is looked at. -/
theorem assign_append {letters : String} {shift : Int} {read : Reader} {before : List (List Char)}
    {as : List (Int × Scalar)} (has : List.Forall₂ (Assigns letters shift read) before as)
    (hblank : ∀ p ∈ before, ∀ c ∈ p, isBlank c = false) (key : String) (rest : List (List Char))
    (q : Query) :
    assign (readAssignment letters shift read) key (before ++ rest) q =
      assign (readAssignment letters shift read) key rest (withAssignments q key as) := by
  induction has generalizing q with
  | nil => rw [withAssignments_nil, List.nil_append]
  | cons ha _ ih =>
    rw [List.forall_mem_cons] at hblank
    rw [List.cons_append, assign, readAssignment_of_assigns hblank.1 ha]
    exact ih hblank.2 _

/-! ### Written assignments -/

/-- The letters can stand in front of an index: cleaning leaves them as they are, and they hold
nothing that separates assignments or their sides. -/
def AreLetters (letters : String) : Prop :=
  ∀ c ∈ letters.toList, c ≠ ',' ∧ c ≠ '=' ∧ c ≠ '<' ∧ c ≠ '>' ∧ isBlank c = false

/-- What is written for an index and an integer. -/
def assignmentText (letters : String) (a : Int × Int) : List Char :=
  letters.toList ++ decimal a.1 ++ '=' :: decimal a.2

theorem equals_not_mem_decimal (n : Int) : '=' ∉ decimal n :=
  (numeral_decimal n).not_mem (by decide) rfl

/-- Nothing in a numeral separates assignments or is cleaned away. -/
theorem of_mem_decimal {n : Int} {c : Char} (hc : c ∈ decimal n) :
    c ≠ ',' ∧ Cleaning.isStripped false c = false := by
  constructor
  · rintro rfl
    exact (numeral_decimal n).not_mem (by decide) rfl hc
  · rcases (numeral_decimal n).of_mem hc with rfl | hdigit
    · rfl
    · exact Cleaning.isStripped_of_isDigit (isDigit_of_isAsciiDigit hdigit)

section Written

variable {letters : String} (hletters : AreLetters letters) (a : Int × Int)

include hletters

theorem of_mem_assignmentText {c : Char} (hc : c ∈ assignmentText letters a) :
    c ≠ ',' ∧ Cleaning.isStripped false c = false := by
  simp only [assignmentText, List.mem_append, List.mem_cons] at hc
  rcases hc with (hc | hc) | rfl | hc
  · obtain ⟨hcomma, -, hopen, hclose, hblank⟩ := hletters c hc
    exact ⟨hcomma, by simp [Cleaning.isStripped, hopen, hclose, hblank]⟩
  · exact of_mem_decimal hc
  · decide
  · exact of_mem_decimal hc

/-- What is written for an index and an integer assigns the one to the other. -/
theorem assigns_assignmentText {shift : Int} (hindex : Fits a.1) (hvalue : Fits a.2)
    (hfits : Fits (a.1 + shift)) :
    Assigns letters shift Reader.integer (assignmentText letters a)
      (a.1 + shift, .integer a.2) := by
  have honly : (assignmentText letters a).count '=' = 1 := by
    refine count_equals_eq_one_iff.2 ⟨fun hmem => ?_, equals_not_mem_decimal a.2⟩
    rcases List.mem_append.1 hmem with hmem | hmem
    · exact (hletters _ hmem).2.1 rfl
    · exact equals_not_mem_decimal a.1 hmem
  have hread : Reader.integer (decimal a.2) = .ok (.integer a.2) := by
    rw [Reader.integer, Reader.readInteger_decimal hvalue]
    rfl
  exact .intro honly (Reader.readInteger_decimal hindex) hfits hread

end Written

/-- What is written for indices and integers, with commas between them. -/
def assignmentsText (letters : String) (pairs : List (Int × Int)) : List Char :=
  joined ',' (pairs.map (assignmentText letters))

section List

variable {letters : String} {pairs : List (Int × Int)}

theorem assignmentsText_ne_nil (hne : pairs ≠ []) : assignmentsText letters pairs ≠ [] := by
  refine joined_ne_nil (fun p hp => ?_) (by simpa using hne)
  obtain ⟨a, -, rfl⟩ := List.mem_map.1 hp
  simp [assignmentText]

theorem pieces_assignmentsText (hletters : AreLetters letters) (hne : pairs ≠ []) :
    pieces ',' (assignmentsText letters pairs) = pairs.map (assignmentText letters) := by
  refine pieces_joined (by simpa using hne) fun p hp hcomma => ?_
  obtain ⟨a, -, rfl⟩ := List.mem_map.1 hp
  exact (of_mem_assignmentText hletters a hcomma).1 rfl

theorem isStripped_of_mem_assignmentsText (hletters : AreLetters letters) {c : Char}
    (hc : c ∈ assignmentsText letters pairs) : Cleaning.isStripped false c = false := by
  rcases mem_joined hc with rfl | ⟨p, hp, hc⟩
  · decide
  · obtain ⟨a, -, rfl⟩ := List.mem_map.1 hp
    exact (of_mem_assignmentText hletters a hc).2

end List

end Kind

/-! ### Calls -/

namespace Box

variable {letters : String} {shift : Int} {read : Reader} {form : Form} {q : Query}
  {args : Arguments} {field raw : String}

/-- The pieces of a clean text have no blanks. -/
theorem not_blank_of_mem_pieces_stripped {cs p : List Char}
    (hp : p ∈ pieces ',' (Cleaning.stripped false cs)) : ∀ c ∈ p, isBlank c = false := fun _ hc =>
  (Cleaning.isStripped_eq_false
    (Cleaning.isStripped_of_mem_stripped (subset_of_mem_pieces hp hc))).2.2

/-- The box writes the pieces between the commas, one after the other. -/
theorem call_assign
    (ht : (Kind.assignments letters shift read).box.typed? form args = some (field, raw))
    (hspaces : Cleaning.checkSpaces raw.toList = .ok ()) :
    let b := (Kind.assignments letters shift read).box
    let written := Kind.assign (Kind.readAssignment letters shift read) (b.contextOf args field).key
      (pieces ',' (Cleaning.stripped false raw.toList)) q
    (b.call form q args).query = written.1 ∧ (b.call form q args).result = written.2 :=
  call_of_checkSpaces ht hspaces

/-- If all pieces are good, all of them are written. -/
theorem call_of_assigns
    (ht : (Kind.assignments letters shift read).box.typed? form args = some (field, raw))
    (hspaces : Cleaning.checkSpaces raw.toList = .ok ()) {as : List (Int × Scalar)}
    (has : List.Forall₂ (Kind.Assigns letters shift read)
      (pieces ',' (Cleaning.stripped false raw.toList)) as) :
    let b := (Kind.assignments letters shift read).box
    (b.call form q args).result = .ok () ∧
      (b.call form q args).query = Kind.withAssignments q (b.contextOf args field).key as := by
  intro b
  obtain ⟨hquery, hresult⟩ := call_assign (q := q) ht hspaces
  have hblank : ∀ p ∈ pieces ',' (Cleaning.stripped false raw.toList), ∀ c ∈ p, isBlank c = false :=
    fun _ => not_blank_of_mem_pieces_stripped
  rw [← List.append_nil (pieces _ _), Kind.assign_append has hblank] at hquery hresult
  exact ⟨hresult, hquery⟩

/-- The first piece that is not good ends the run, and what stands before it stays written. -/
theorem exists_fault_of_call
    (ht : (Kind.assignments letters shift read).box.typed? form args = some (field, raw))
    (hspaces : Cleaning.checkSpaces raw.toList = .ok ()) {before rest : List (List Char)}
    {p : List Char} {as : List (Int × Scalar)}
    (hps : pieces ',' (Cleaning.stripped false raw.toList) = before ++ p :: rest)
    (has : List.Forall₂ (Kind.Assigns letters shift read) before as)
    (hp : ¬ ∃ a, Kind.Assigns letters shift read p a) :
    let b := (Kind.assignments letters shift read).box
    ∃ e, Kind.Fault letters shift read p e ∧ (b.call form q args).result = .error e ∧
      (b.call form q args).query = Kind.withAssignments q (b.contextOf args field).key as := by
  intro b
  obtain ⟨hquery, hresult⟩ := call_assign (q := q) ht hspaces
  have hblank : ∀ p' ∈ before ++ p :: rest, ∀ c ∈ p', isBlank c = false := fun p' hp' =>
    not_blank_of_mem_pieces_stripped (hps ▸ hp')
  rw [List.forall_mem_append, List.forall_mem_cons] at hblank
  obtain ⟨e, he, hfault⟩ := Kind.exists_fault hblank.2.1 hp
  rw [hps, Kind.assign_append has hblank.1, Kind.assign, he] at hquery hresult
  exact ⟨e, hfault, hresult, hquery⟩

/-- Written assignments are read back, as long as no index comes twice. -/
theorem call_written (hletters : Kind.AreLetters letters)
    (hfield : (Kind.assignments letters shift Reader.integer).box.field? args = some field)
    {pairs : List (Int × Int)} (hne : pairs ≠ []) (hnodup : (pairs.map Prod.fst).Nodup)
    (hfits : ∀ a ∈ pairs, Fits a.1 ∧ Fits a.2 ∧ Fits (a.1 + shift)) :
    let b := (Kind.assignments letters shift Reader.integer).box
    let text := String.ofList (Kind.assignmentsText letters pairs)
    let out := b.call (form.set field text) .empty args
    out.result = .ok () ∧ out.query.alternatives = none ∧
      out.query.fields.entries = pairs.map fun a =>
        (Sequence.elementKey (b.contextOf args field).key (a.1 + shift),
          .value (.integer a.2)) := by
  intro b text out
  have hclean : ∀ c ∈ text.toList, Cleaning.isStripped false c = false := by
    rw [String.toList_ofList]
    exact fun c => Kind.isStripped_of_mem_assignmentsText hletters
  have ht : b.typed? (form.set field text) args = some (field, text) :=
    typed?_eq_some.2 ⟨hfield, Form.get?_set_self form field _,
      by simpa [text] using Kind.assignmentsText_ne_nil hne⟩
  have hspaces : Cleaning.checkSpaces text.toList = .ok () :=
    Cleaning.checkSpaces_of_not_blank fun c hc => (Cleaning.isStripped_eq_false (hclean c hc)).2.2
  have has : List.Forall₂ (Kind.Assigns letters shift Reader.integer)
      (pieces ',' (Cleaning.stripped false text.toList))
      (pairs.map fun a => (a.1 + shift, .integer a.2)) := by
    rw [Cleaning.stripped_of_not_mem hclean, String.toList_ofList,
      Kind.pieces_assignmentsText hletters hne, List.forall₂_map_left_iff,
      List.forall₂_map_right_iff, List.forall₂_same]
    intro a ha
    obtain ⟨hindex, hvalue, hshifted⟩ := hfits a ha
    exact Kind.assigns_assignmentText hletters a hindex hvalue hshifted
  obtain ⟨hok, hquery⟩ := call_of_assigns (q := .empty) ht hspaces has
  refine ⟨hok, congrArg Query.alternatives hquery, ?_⟩
  have hshifted : ((pairs.map fun a => (a.1 + shift, Scalar.integer a.2)).map Prod.fst).Nodup := by
    have hinj : Function.Injective (· + shift) := fun m n h => (Int.add_left_inj shift).1 h
    rw [List.map_map]
    have hmap := hnodup.map hinj
    rwa [List.map_map] at hmap
  rw [hquery, Kind.entries_withAssignments hshifted, List.map_map]
  rfl

/-- **Assignments are a fold from the left, up to the first fault.** Let the letters hold no comma,
no equals sign and nothing that cleaning drops, and let a text without blanks between digits be
typed. If all of its pieces between commas are good, then the box takes it, and writes what they
assign into the query, in their order. Otherwise it refuses the text for what is wrong with the
first piece that is not good, and what the pieces before that one assign is written, and nothing
else.

In particular, what is written for integers with different indices is read back into the empty
query: the fields are those of the indices, shifted, in the same order. -/
theorem call_assignments (hletters : Kind.AreLetters letters) :
    (∀ (form : Form) (q : Query) (args : Arguments) (field raw : String),
      (Kind.assignments letters shift read).box.typed? form args = some (field, raw) →
      Cleaning.checkSpaces raw.toList = .ok () →
      let b := (Kind.assignments letters shift read).box
      let key := (b.contextOf args field).key
      let ps := pieces ',' (Cleaning.stripped false raw.toList)
      let out := b.call form q args
      (∀ as, List.Forall₂ (Kind.Assigns letters shift read) ps as →
        out.result = .ok () ∧ out.query = Kind.withAssignments q key as) ∧
      ∀ before p rest as, ps = before ++ p :: rest →
        List.Forall₂ (Kind.Assigns letters shift read) before as →
        (¬ ∃ a, Kind.Assigns letters shift read p a) →
        ∃ e, Kind.Fault letters shift read p e ∧ out.result = .error e ∧
          out.query = Kind.withAssignments q key as) ∧
    ∀ (form : Form) (args : Arguments) (field : String) (pairs : List (Int × Int)),
      (Kind.assignments letters shift Reader.integer).box.field? args = some field →
      pairs ≠ [] → (pairs.map Prod.fst).Nodup →
      (∀ a ∈ pairs, Fits a.1 ∧ Fits a.2 ∧ Fits (a.1 + shift)) →
      let b := (Kind.assignments letters shift Reader.integer).box
      let text := String.ofList (Kind.assignmentsText letters pairs)
      let out := b.call (form.set field text) .empty args
      out.result = .ok () ∧ out.query.alternatives = none ∧
        out.query.fields.entries = pairs.map fun a =>
          (Sequence.elementKey (b.contextOf args field).key (a.1 + shift),
            .value (.integer a.2)) := by
  constructor
  · intro form q args field raw ht hspaces b key ps out
    refine ⟨fun as has => call_of_assigns ht hspaces has, ?_⟩
    exact fun before p rest as hps has hp => exists_fault_of_call ht hspaces hps has hp
  · intro form args field pairs hfield hne hnodup hfits
    exact call_written hletters hfield hne hnodup hfits

/-- The third assignment overwrites the first one in its place, the fourth piece is a fault, and the
fifth one is not looked at. -/
theorem call_assignments_overwritten :
    let b := (Kind.assignments "a" (-1) Reader.integer).box
    let form := Form.ofList [("n", "a1=3, a4=-2,a1=7,b,a2=1")]
    let args : Arguments := { field := some "n", key := some "c" }
    let out := b.call form .empty args
    Kind.AreLetters "a" ∧ b.typed? form args = some ("n", "a1=3, a4=-2,a1=7,b,a2=1") ∧
    Cleaning.checkSpaces "a1=3, a4=-2,a1=7,b,a2=1".toList = .ok () ∧
    (¬ ∃ a, Kind.Assigns "a" (-1) Reader.integer "b".toList a) ∧
    (∃ e, Kind.Fault "a" (-1) Reader.integer "b".toList e ∧ out.result = .error e) ∧
    out.query.fields.entries =
      [("c.0", .value (.integer 7)), ("c.3", .value (.integer (-2)))] ∧
    (b.call (form.set "n" "a1=3,a4=-2") .empty args).query.fields.entries =
      [("c.0", .value (.integer 3)), ("c.3", .value (.integer (-2)))] := by
  intro b form args out
  have hletters : Kind.AreLetters "a" := by
    intro c hc
    cases List.mem_singleton.1 hc
    decide
  have ht : b.typed? form args = some ("n", "a1=3, a4=-2,a1=7,b,a2=1") := by decide
  have hspaces : Cleaning.checkSpaces "a1=3, a4=-2,a1=7,b,a2=1".toList = .ok () := by decide
  have hbad : ¬ ∃ a, Kind.Assigns "a" (-1) Reader.integer "b".toList a := by
    rintro ⟨a, h⟩
    exact absurd h.count_equals (by decide)
  have hgood : List.Forall₂ (Kind.Assigns "a" (-1) Reader.integer)
      ["a1=3".toList, "a4=-2".toList, "a1=7".toList]
      [(0, .integer 3), (3, .integer (-2)), (0, .integer 7)] :=
    .cons (Kind.assigns_assignmentText hletters (1, 3) (by decide) (by decide) (by decide))
      (.cons (Kind.assigns_assignmentText hletters (4, -2) (by decide) (by decide) (by decide))
        (.cons (Kind.assigns_assignmentText hletters (1, 7) (by decide) (by decide) (by decide))
          .nil))
  obtain ⟨hrun, hwritten⟩ := @call_assignments "a" (-1) Reader.integer hletters
  obtain ⟨e, hfault, hresult, hquery⟩ :=
    (hrun form .empty args "n" _ ht hspaces).2 _ _ ["a2=1".toList] _ (by decide) hgood hbad
  obtain ⟨-, -, hentries⟩ :=
    hwritten form args "n" [(1, 3), (4, -2)] rfl (by decide) (by decide) (by decide)
  exact ⟨hletters, ht, hspaces, hbad, ⟨e, hfault, hresult⟩, hquery ▸ rfl, hentries⟩

end Box

end SearchBox
