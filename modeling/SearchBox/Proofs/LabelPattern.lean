import Mathlib
import SearchBox.Pattern.Reader
import SearchBox.Proofs.OrderedMap
import SearchBox.Proofs.Pattern
import SearchBox.AliasTable

/-!
# Inputs that are labels

Let the table search for a pattern. An input whose lower case is no alias stands for itself if the
search takes all of it, and is refused otherwise (`AliasTable.resolve_of_pattern`). What is not in the
language of the pattern is refused (`AliasTable.resolve_of_not_mem`), and for a deterministic pattern
all of the language passes (`AliasTable.resolve_of_isDeterministic`).

`Pattern.samples` are written patterns of several shapes: parts that are counted, a letter in front,
parts that are not counted, no text, and a branch that is the front of another one. All but the last
are deterministic (`Pattern.isDeterministic_of_mem`). The last, `a|ab`, takes the front of `ab`, so
`ab` is refused, though it is in the language; there is no other such text
(`AliasTable.resolve_label`).
-/

namespace SearchBox

namespace Pattern

variable {p q : Pattern} {k : CharClass} {c d : Char} {cs : List Char} {text : String}

/-! ### Written patterns -/

/-- Written patterns of several shapes. -/
def samples : List String :=
  ["\\d+\\.\\d+\\.\\d+\\.\\d+", "[A-Z]\\d+", "\\d+(\\.\\d+)*", "", "a|ab"]

/-- One given character. -/
def character (c : Char) : Pattern := one (.ranges false [(c.toNat, c.toNat)])

/-- A run of digits. -/
def digits : Pattern := manyOne (one .digit)

/-- A run of digits that is followed by another pattern. -/
def digitsThen (q : Pattern) : Pattern := sequence digits q

/-- A dot that is followed by another pattern. -/
def dotThen (q : Pattern) : Pattern := sequence (character '.') q

/-- A first choice that is the front of the second one. -/
def aOrAb : Pattern :=
  choice (sequence (character 'a') empty)
    (sequence (character 'a') (sequence (character 'b') empty))

theorem ofText?_aOrAb : ofText? "a|ab".toList = some aOrAb := by cbv

@[simp] theorem begins_character : (character c).begins d ↔ d = c := by
  simp only [character, begins, CharClass.holds, List.any_cons, List.any_nil, Bool.or_false,
    Bool.false_bne, Bool.and_eq_true, decide_eq_true_eq, ← Char.toNat_inj]
  omega

theorem isDeterministic_one_sequence (hq : q.IsDeterministic) :
    (sequence (one k) q).IsDeterministic :=
  ⟨trivial, hq, fun _ hc => hc.elim⟩

theorem isDeterministic_dotThen (hq : q.IsDeterministic) : (dotThen q).IsDeterministic :=
  isDeterministic_one_sequence hq

/-- What begins with a dot begins with nothing else. -/
theorem eq_of_begins_dotThen (h : (dotThen q).begins c) : c = '.' := by
  rcases h with hc | ⟨hnull, -⟩
  · exact begins_character.1 hc
  · cases hnull

theorem isDigit_of_continues (h : digits.continues c) : Text.isDigit c = true := by
  simpa [digits, manyOne, continues, begins, CharClass.holds] using h

theorem isDeterministic_digits : digits.IsDeterministic := by
  simp [digits, manyOne, IsDeterministic, continues]

/-- Digits followed by nothing that begins with a digit. -/
theorem isDeterministic_digitsThen (hq : q.IsDeterministic)
    (hbegins : ∀ c, q.begins c → c = '.') : (digitsThen q).IsDeterministic := by
  refine ⟨isDeterministic_digits, hq, fun c hc hb => ?_⟩
  have hdigit := isDigit_of_continues hc
  rw [hbegins c hb] at hdigit
  exact absurd hdigit (by decide)

/-- Digits and a dot, with anything deterministic behind them. -/
theorem isDeterministic_digitsThen_dotThen (hq : q.IsDeterministic) :
    (digitsThen (dotThen q)).IsDeterministic :=
  isDeterministic_digitsThen (isDeterministic_dotThen hq) fun _ => eq_of_begins_dotThen

theorem isDeterministic_digitsThen_empty : (digitsThen empty).IsDeterministic :=
  isDeterministic_digitsThen trivial fun _ hc => hc.elim

theorem isDigit_of_continues_dotThen (h : (dotThen (digitsThen empty)).continues c) :
    Text.isDigit c = true := by
  rcases h with (hc | ⟨-, hc⟩) | ⟨-, hc⟩
  · exact hc.elim
  · exact isDigit_of_continues hc
  · exact hc.elim

/-- Dots with digits behind them, again and again: a repetition goes on with a digit, and the next
one begins with a dot. -/
theorem isDeterministic_many_dotThen : (many (dotThen (digitsThen empty))).IsDeterministic := by
  refine ⟨isDeterministic_dotThen isDeterministic_digitsThen_empty, fun c hc hb => ?_⟩
  have hdigit := isDigit_of_continues_dotThen hc
  rw [eq_of_begins_dotThen hb] at hdigit
  exact absurd hdigit (by decide)

/-- All of these patterns but the last are deterministic. -/
theorem isDeterministic_of_mem (h : text ∈ samples) (hne : text ≠ "a|ab") :
    ∃ p, ofText? text.toList = some p ∧ p.IsDeterministic := by
  simp only [samples, List.mem_cons, List.not_mem_nil, or_false] at h
  rcases h with rfl | rfl | rfl | rfl | rfl
  · refine ⟨digitsThen (dotThen (digitsThen (dotThen (digitsThen (dotThen (digitsThen empty)))))),
      by cbv, ?_⟩
    exact isDeterministic_digitsThen_dotThen <| isDeterministic_digitsThen_dotThen <|
      isDeterministic_digitsThen_dotThen isDeterministic_digitsThen_empty
  · refine ⟨sequence (one (.ranges false [(65, 90)])) (digitsThen empty), by cbv, ?_⟩
    exact isDeterministic_one_sequence isDeterministic_digitsThen_empty
  · refine ⟨digitsThen (sequence (many (dotThen (digitsThen empty))) empty), by cbv, ?_⟩
    refine isDeterministic_digitsThen ⟨isDeterministic_many_dotThen, trivial, ?_⟩ ?_
    · intro c _ hb
      exact hb
    · rintro c (hc | ⟨-, hc⟩)
      · exact eq_of_begins_dotThen hc
      · exact hc.elim
  · exact ⟨empty, by cbv, trivial⟩
  · exact absurd rfl hne

/-! ### A choice whose first branch is the front of the second one -/

theorem mem_language_character : cs ∈ (character c).language ↔ cs = [c] := by
  constructor
  · rintro ⟨d, hd, rfl⟩
    rw [begins_character.1 hd]
  · rintro rfl
    exact ⟨c, begins_character.2 rfl, rfl⟩

theorem mem_language_aOrAb : cs ∈ aOrAb.language ↔ cs = ['a'] ∨ cs = ['a', 'b'] := by
  simp [aOrAb, mem_language_character, eq_comm]

/-- The first branch is preferred, so that only what it takes is matched as a whole. -/
theorem matchesWhole_aOrAb : aOrAb.matchesWhole cs = true ↔ cs = ['a'] := by
  constructor
  · intro h
    rcases mem_language_aOrAb.1 (mem_language_of_matchesWhole h) with hcs | rfl
    · exact hcs
    · exact absurd h (by decide)
  · rintro rfl
    decide

end Pattern

/-! ### Labels that stand for themselves -/

namespace AliasTable

variable {t : AliasTable} {p : Pattern} {raw : List Char}

/-- An input that is no alias stands for itself if the pattern matches all of it, and is refused
otherwise. -/
theorem resolve_of_pattern (hp : t.pattern = some p.search) (hx : normalized raw ≠ [])
    (hkey : String.ofList (Text.lower (normalized raw)) ∉ t.names.keys) :
    t.resolve raw = if p.matchesWhole (normalized raw) = true
      then .ok (String.ofList (normalized raw)) else .error (.unresolved unknownMessage) := by
  have hget := OrderedMap.get?_eq_none_iff.2 hkey
  simp only [resolve, List.isEmpty_iff, hx, if_false, hget, isLabel, hp, decide_eq_true_eq,
    Pattern.search_eq_whole_iff]

/-- What is not in the language of the pattern is refused. -/
theorem resolve_of_not_mem (hp : t.pattern = some p.search) (hx : normalized raw ≠ [])
    (hkey : String.ofList (Text.lower (normalized raw)) ∉ t.names.keys)
    (hmem : normalized raw ∉ p.language) : t.resolve raw = .error (.unresolved unknownMessage) := by
  rw [resolve_of_pattern hp hx hkey, if_neg fun h => hmem (Pattern.mem_language_of_matchesWhole h)]

/-- What is in the language of a deterministic pattern stands for itself. -/
theorem resolve_of_isDeterministic (hp : t.pattern = some p.search) (hdet : p.IsDeterministic)
    (hx : normalized raw ≠ [])
    (hkey : String.ofList (Text.lower (normalized raw)) ∉ t.names.keys)
    (hmem : normalized raw ∈ p.language) :
    t.resolve raw = .ok (String.ofList (normalized raw)) := by
  rw [resolve_of_pattern hp hx hkey, if_pos ((Pattern.matchesWhole_iff hdet).2 hmem)]

/-- With the choice, `a` stands for itself, and `ab` does not. -/
theorem resolve_of_aOrAb (hp : t.pattern = some Pattern.aOrAb.search) (hx : normalized raw ≠ [])
    (hkey : String.ofList (Text.lower (normalized raw)) ∉ t.names.keys) :
    (normalized raw = ['a'] → t.resolve raw = .ok (String.ofList (normalized raw))) ∧
    (normalized raw = ['a', 'b'] → t.resolve raw = .error (.unresolved unknownMessage)) := by
  have hresolve := resolve_of_pattern hp hx hkey
  simp only [Pattern.matchesWhole_aOrAb] at hresolve
  refine ⟨fun h => by rw [hresolve, if_pos h], fun h => ?_⟩
  rw [hresolve, if_neg (by rw [h]; decide)]

/-- What happens to an input that is no alias: outside of the language of the pattern it is refused;
in the language of a deterministic pattern it stands for itself; and with the written patterns above
it stands for itself in their language but for `ab`, which `a|ab` refuses. -/
theorem resolve_label (raw : List Char) (hp : t.pattern = some p.search) (hx : normalized raw ≠ [])
    (hkey : String.ofList (Text.lower (normalized raw)) ∉ t.names.keys) :
    (normalized raw ∉ p.language → t.resolve raw = .error (.unresolved unknownMessage)) ∧
    (normalized raw ∈ p.language → p.IsDeterministic →
      t.resolve raw = .ok (String.ofList (normalized raw))) ∧
    (normalized raw ∈ p.language → ∀ text ∈ Pattern.samples,
      Pattern.ofText? text.toList = some p →
        if text = "a|ab" ∧ normalized raw = ['a', 'b'] then
          t.resolve raw = .error (.unresolved unknownMessage)
        else t.resolve raw = .ok (String.ofList (normalized raw))) := by
  refine ⟨resolve_of_not_mem hp hx hkey,
    fun hmem hdet => resolve_of_isDeterministic hp hdet hx hkey hmem,
    fun hmem text htext hread => ?_⟩
  by_cases hchoice : text = "a|ab"
  · subst hchoice
    obtain rfl : Pattern.aOrAb = p := Option.some.inj (Pattern.ofText?_aOrAb.symm.trans hread)
    obtain ⟨hfront, hwhole⟩ := resolve_of_aOrAb hp hx hkey
    rcases Pattern.mem_language_aOrAb.1 hmem with hcs | hcs
    · rw [if_neg (by simp [hcs])]
      exact hfront hcs
    · rw [if_pos ⟨rfl, hcs⟩]
      exact hwhole hcs
  · obtain ⟨p', hread', hdet⟩ := Pattern.isDeterministic_of_mem htext hchoice
    obtain rfl : p' = p := Option.some.inj (hread'.symm.trans hread)
    rw [if_neg fun h => hchoice h.1]
    exact resolve_of_isDeterministic hp hdet hx hkey hmem

/-- A table with one alias that takes `a` for a label and not `ab`, and one that takes `C2`. -/
theorem resolve_label_front :
    let names : OrderedMap String := .ofList [("q", "1.1.1.1")]
    let letterNumber := Pattern.sequence (.one (.ranges false [(65, 90)])) (.digitsThen .empty)
    let choice : AliasTable := { names, pattern := some Pattern.aOrAb.search }
    choice.resolve "a".toList = .ok "a" ∧
    choice.resolve "ab".toList = .error (.unresolved unknownMessage) ∧
    choice.resolve "b".toList = .error (.unresolved unknownMessage) ∧
    resolve { names, pattern := some letterNumber.search } "C2".toList = .ok "C2" := by
  intro names letterNumber choice
  have htext : "a|ab" ∈ Pattern.samples := by decide
  have hkey : ∀ x ∈ ["a", "ab", "b", "C2"],
      String.ofList (Text.lower (normalized x.toList)) ∉ names.keys := by decide +kernel
  have ha := resolve_label (t := choice) (p := .aOrAb) "a".toList rfl (by decide)
    (hkey _ (by decide))
  have hab := resolve_label (t := choice) (p := .aOrAb) "ab".toList rfl (by decide)
    (hkey _ (by decide))
  have hb := resolve_label (t := choice) (p := .aOrAb) "b".toList rfl (by decide)
    (hkey _ (by decide))
  have hC := resolve_label (t := { names, pattern := some letterNumber.search })
    (p := letterNumber) "C2".toList rfl (by decide) (hkey _ (by decide))
  refine ⟨ha.2.2 (Pattern.mem_language_aOrAb.2 (.inl rfl)) _ htext Pattern.ofText?_aOrAb,
    hab.2.2 (Pattern.mem_language_aOrAb.2 (.inr rfl)) _ htext Pattern.ofText?_aOrAb,
    hb.1 fun h => ?_, hC.2.1 ?_ ?_⟩
  · rcases Pattern.mem_language_aOrAb.1 h with heq | heq <;> cases heq
  · exact Pattern.mem_language_of_matchesWhole (by decide +kernel)
  · exact Pattern.isDeterministic_one_sequence Pattern.isDeterministic_digitsThen_empty

/-- Not every text in the language of such a pattern stands for itself. -/
theorem not_resolve_label : ¬ ∀ (t : AliasTable) (p : Pattern), ∀ text ∈ Pattern.samples,
    Pattern.ofText? text.toList = some p → t.pattern = some p.search → ∀ raw : List Char,
    normalized raw ≠ [] → String.ofList (Text.lower (normalized raw)) ∉ t.names.keys →
    normalized raw ∈ p.language → t.resolve raw = .ok (String.ofList (normalized raw)) := by
  intro h
  have hab := h { pattern := some Pattern.aOrAb.search } .aOrAb "a|ab" (by decide) Pattern.ofText?_aOrAb rfl
    ['a', 'b'] (by decide) (by simp) (Pattern.mem_language_aOrAb.2 (.inr rfl))
  exact absurd hab (by decide +kernel)

end AliasTable

end SearchBox
