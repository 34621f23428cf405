import SearchBox.Proofs.CommaList
import SearchBox.Proofs.Grammar

/-!
# Boxes of doubles

Where the digits are ASCII, a piece that the grammar of doubles accepts has one reading: a double, a
double with a dash behind it, or two doubles with a dash between (`existsUnique_spells`). The box
compiles the pieces as these readings say, and fails if and only if a double among them is too large to
be finite (`call_doubles`).
-/

namespace SearchBox

open Text Token

/-! ### Finite doubles -/

namespace Number.Double

variable {x : Double} {cs : List Char}

theorem storedExponent_negate (x : Double) : x.negate.storedExponent = x.storedExponent := by
  have hsign : (0x8000000000000000 : UInt64).toNat >>> 52 % 2048 = 0 := rfl
  have hmod (m n : Nat) : (m ^^^ n) % 2048 = m % 2048 ^^^ n % 2048 :=
    Nat.xor_mod_two_pow (n := 11)
  rw [storedExponent, negate, UInt64.toNat_xor, Nat.shiftRight_xor_distrib, hmod, hsign,
    Nat.xor_zero, storedExponent]

theorem isFinite_negate (x : Double) : x.negate.isFinite = x.isFinite := by
  rw [isFinite, storedExponent_negate, isFinite]

theorem isFinite_of_nearest? {digits : Nat} {exponent : Int} (h : nearest? digits exponent = some x) :
    x.isFinite = true := by
  unfold nearest? at h
  dsimp only at h
  split at h
  · cases h
    rfl
  split at h
  · cases h
  split at h
  · rename_i hfinite
    cases h
    exact hfinite
  · cases h

theorem isFinite_of_readUnsigned? (h : readUnsigned? cs = some x) : x.isFinite = true := by
  obtain ⟨⟨digits, places⟩, -, h'⟩ := Option.bind_eq_some_iff.1 h
  obtain ⟨e, -, hnearest⟩ := Option.bind_eq_some_iff.1 h'
  exact isFinite_of_nearest? hnearest

/-- What is read is finite. -/
theorem isFinite_of_read? (h : read? cs = some x) : x.isFinite = true := by
  unfold read? at h
  split at h
  · obtain ⟨y, hy, rfl⟩ := Option.map_eq_some_iff.1 h
    rw [isFinite_negate]
    exact isFinite_of_readUnsigned? hy
  · exact isFinite_of_readUnsigned? h
  · exact isFinite_of_readUnsigned? h

end Number.Double

open Number

/-- The double reader gives a finite double or none. -/
theorem Reader.exists_double_iff {t : List Char} :
    (∃ v, Reader.double t = .ok v) ↔
      ∃ x : Double, x.isFinite = true ∧ Reader.double t = .ok (.double x) := by
  constructor
  · rintro ⟨v, hv⟩
    obtain ⟨x, hx, rfl⟩ := map_eq_ok.1 hv
    exact ⟨x, Double.isFinite_of_read? (Reader.orInvalid_eq_ok.1 hx), hv⟩
  · rintro ⟨x, -, hx⟩
    exact ⟨.double x, hx⟩

/-! ### Readings of the pieces -/

variable {text : List Char}

/-- In a text with ASCII digits, the tokens of a piece of doubles are passed over. -/
theorem unbroken_of_spells (hascii : ∀ c ∈ text, isDigit c = true → c.isDigit = true)
    {p : List Char} (hp : p ∈ pieces ',' text) {r : Reading} (h : r.Spells isDouble p) :
    ∀ t ∈ r.tokens, Unbroken t := by
  intro t ht
  refine unbroken_of_isDouble (h.isToken_of_mem t ht) fun c hc => hascii c ?_
  have hcp : c ∈ p := h.text_eq ▸ Reading.subset_text ht hc
  exact subset_of_mem_pieces hp hcp

/-- **With ASCII digits, a piece of doubles has exactly one reading.** -/
theorem existsUnique_spells (haccepts : isDoubleList text = true)
    (hascii : ∀ c ∈ text, isDigit c = true → c.isDigit = true) {p : List Char}
    (hp : p ∈ pieces ',' text) : ∃! r : Reading, r.Spells isDouble p := by
  obtain ⟨r, hr⟩ := isDoublePiece_iff.1 (List.all_eq_true.1 haccepts p hp)
  refine ⟨r, hr, fun r' hr' => ?_⟩
  exact Reading.eq_of_text_eq (unbroken_of_spells hascii hp hr') (unbroken_of_spells hascii hp hr)
    (hr'.text_eq.trans hr.text_eq.symm)

/-- The pieces are compiled as their readings say. -/
theorem forall₂_compiled_iff (read : Reader) {ps : List (List Char)} {rs : List Reading}
    {cs : List Constraint} (h : List.Forall₂ (fun p r => r.Spells isDouble p) ps rs)
    (hunbroken : ∀ p ∈ ps, ∀ r : Reading, r.Spells isDouble p → ∀ t ∈ r.tokens, Unbroken t) :
    List.Forall₂ (fun p c => isDoublePiece p = true ∧ Range.ofPiece (.plain read) p = .ok c) ps cs ↔
      List.Forall₂ (fun r c => r.constraint read = .ok c) rs cs := by
  induction h generalizing cs with
  | nil => rw [List.forall₂_nil_left_iff, List.forall₂_nil_left_iff]
  | @cons p r ps rs hpr _ ih =>
    rw [List.forall_mem_cons] at hunbroken
    have hpiece : isDoublePiece p = true := isDoublePiece_iff.2 ⟨r, hpr⟩
    have hcompiled : Range.ofPiece (.plain read) p = r.constraint read := by
      rw [← Range.ofPiece_text read (hunbroken.1 r hpr), hpr.text_eq]
    cases cs with
    | nil => simp
    | cons c cs => rw [List.forall₂_cons, List.forall₂_cons, ih hunbroken.2, hpiece, hcompiled,
        eq_self, true_and]

/-! ### Calls -/

namespace Box

variable {form : Form} {args : Arguments} {field raw : String}

/-- **The box of doubles cuts its pieces where the grammar does.** Let a text that was typed be accepted
once it is cleaned, with ASCII digits. Then every piece has exactly one reading in doubles. If all
doubles can be read, then the constraints of the readings are stored, that of a single piece as a field
and those of several as alternatives in their order. The call fails if and only if one of the doubles
has no finite value. -/
theorem call_doubles (ht : Kind.doubles.box.typed? form args = some (field, raw))
    (hspaces : Cleaning.checkSpaces raw.toList = .ok ())
    (haccepts : isDoubleList (Kind.doubles.policy.prepare raw.toList) = true)
    (hascii : ∀ c ∈ Kind.doubles.policy.prepare raw.toList, isDigit c = true → c.isDigit = true) :
    let key := (Kind.doubles.box.contextOf args field).key
    let ps := pieces ',' (Kind.doubles.policy.prepare raw.toList)
    let out := Kind.doubles.box.call form .empty args
    (∀ p ∈ ps, ∃! r : Reading, r.Spells isDouble p) ∧
    ∀ rs : List Reading, List.Forall₂ (fun p r => r.Spells isDouble p) ps rs →
      (∀ cs, List.Forall₂ (fun r c => r.constraint Reader.double = .ok c) rs cs →
        out.result = .ok () ∧ out.query = (Range.fragmentOf key cs).query) ∧
      ((∃ e, out.result = .error e) ↔
        ∃ r ∈ rs, ∃ t ∈ r.tokens,
          ∀ x : Double, x.isFinite = true → Reader.double t ≠ .ok (.double x)) := by
  intro key ps out
  refine ⟨fun p hp => existsUnique_spells haccepts hascii hp, fun rs hrs => ?_⟩
  have hcompiled (cs : List Constraint) :
      List.Forall₂ (fun p c => isDoublePiece p = true ∧
        Range.ofPiece (.plain Reader.double) p = .ok c) ps cs ↔
      List.Forall₂ (fun r c => r.constraint Reader.double = .ok c) rs cs :=
    forall₂_compiled_iff Reader.double hrs fun p hp r hr => unbroken_of_spells hascii hp hr
  have hok : out.result = .ok () ↔ ∀ r ∈ rs, ∀ t ∈ r.tokens,
      ∃ x : Double, x.isFinite = true ∧ Reader.double t = .ok (.double x) := by
    rw [isCommaList_doubles.call_ok_iff ht hspaces]
    calc (∃ cs, List.Forall₂ (fun p c => isDoublePiece p = true ∧
            Range.ofPiece (.plain Reader.double) p = .ok c) ps cs)
        ↔ ∃ cs, List.Forall₂ (fun r c => r.constraint Reader.double = .ok c) rs cs :=
          exists_congr hcompiled
      _ ↔ ∀ r ∈ rs, ∃ c, r.constraint Reader.double = .ok c := exists_forall₂_iff
      _ ↔ ∀ r ∈ rs, ∀ t ∈ r.tokens, ∃ v, Reader.double t = .ok v :=
          forall₂_congr fun r _ => Reading.exists_constraint_iff
      _ ↔ _ := forall₂_congr fun r _ => forall₂_congr fun t _ => Reader.exists_double_iff
  have herror : (∃ e, out.result = .error e) ↔ ¬ out.result = .ok () := by
    cases out.result <;> simp
  refine ⟨fun cs hcs => ?_, ?_⟩
  · exact isCommaList_doubles.call_of_forall₂ ht hspaces ((hcompiled cs).2 hcs)
  · rw [herror, hok]
    simp only [not_forall, not_exists, not_and, exists_prop]

/-- An exponent, points without digits on one side and an open interval; and a double that is too
large. -/
theorem call_doubles_zero :
    let box := Kind.doubles.box
    let form := Form.ofList [("x", "0.e-5-.0, 0-"), ("y", "1e-5-2e400")]
    let x : Arguments := { field := some "x" }
    let y : Arguments := { field := some "y" }
    box.typed? form x = some ("x", "0.e-5-.0, 0-") ∧
    box.typed? form y = some ("y", "1e-5-2e400") ∧
    (∀ raw ∈ ["0.e-5-.0, 0-", "1e-5-2e400"], Cleaning.checkSpaces raw.toList = .ok () ∧
      isDoubleList (box.policy.prepare raw.toList) = true) ∧
    (box.call form .empty x).result = .ok () ∧
    (box.call form .empty x).query =
      .anyOf [.single "x" (.range (some (.double .zero)) (some (.double .zero))),
        .single "x" (.range (some (.double .zero)) none)] ∧
    ∃ e, (box.call form .empty y).result = .error e := by
  intro box form x y
  have hx : box.typed? form x = some ("x", "0.e-5-.0, 0-") := by decide
  have hy : box.typed? form y = some ("y", "1e-5-2e400") := by decide
  have hraw : ∀ raw ∈ ["0.e-5-.0, 0-", "1e-5-2e400"], Cleaning.checkSpaces raw.toList = .ok () ∧
      isDoubleList (box.policy.prepare raw.toList) = true := by
    decide
  obtain ⟨hspaces, haccepts⟩ := hraw "0.e-5-.0, 0-" (by simp)
  obtain ⟨hspaces', haccepts'⟩ := hraw "1e-5-2e400" (by simp)
  have hascii (cs : List Char) (h : cs.all (fun c => !isDigit c || c.isDigit) = true) :
      ∀ c ∈ cs, isDigit c = true → c.isDigit = true := by
    intro c hc hdigit
    simpa [hdigit] using List.all_eq_true.1 h c hc
  have hreadings : List.Forall₂ (fun p (r : Reading) => r.Spells isDouble p)
      (pieces ',' (box.policy.prepare "0.e-5-.0, 0-".toList))
      [.interval "0.e-5".toList ".0".toList, .atLeast "0".toList] := by
    have hpieces : pieces ',' (box.policy.prepare "0.e-5-.0, 0-".toList) =
        ["0.e-5-.0".toList, "0-".toList] := by
      decide
    rw [hpieces]
    exact .cons ⟨rfl, by decide⟩ (.cons ⟨rfl, by decide⟩ .nil)
  have hreadings' : List.Forall₂ (fun p (r : Reading) => r.Spells isDouble p)
      (pieces ',' (box.policy.prepare "1e-5-2e400".toList))
      [.interval "1e-5".toList "2e400".toList] := by
    have hpieces : pieces ',' (box.policy.prepare "1e-5-2e400".toList) = ["1e-5-2e400".toList] := by
      decide
    rw [hpieces]
    exact .cons ⟨rfl, by decide⟩ .nil
  have hconstraints : List.Forall₂ (fun (r : Reading) c => r.constraint Reader.double = .ok c)
      [.interval "0.e-5".toList ".0".toList, .atLeast "0".toList]
      [.range (some (.double .zero)) (some (.double .zero)), .range (some (.double .zero)) none] :=
    .cons rfl (.cons rfl .nil)
  have hlarge : Reader.double "2e400".toList = .error (.invalidNumber "2e400") := rfl
  have hzero := (call_doubles hx hspaces haccepts (hascii _ (by decide))).2 _ hreadings
  have htoo := (call_doubles hy hspaces' haccepts' (hascii _ (by decide))).2 _ hreadings'
  obtain ⟨hok, hquery⟩ := hzero.1 _ hconstraints
  refine ⟨hx, hy, hraw, hok, hquery, htoo.2.2
    ⟨_, List.mem_singleton_self _, "2e400".toList, by simp [Reading.tokens], fun z _ hz => ?_⟩⟩
  rw [hlarge] at hz
  cases hz

end Box

end SearchBox
