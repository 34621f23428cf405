import SearchBox.Proofs.Box
import SearchBox.Proofs.Numeral
import SearchBox.Proofs.Pieces

/-!
# Brackets in a list of integers

The list box takes a list of integers, in brackets or not. But it looks for no brackets: it erases all
of them, and then reads what stands between the commas. So it takes brackets anywhere, and two numbers
with nothing but brackets between them become one (`Box.integerList_fuses`). What was typed is a list
exactly if no bracket stands in it, but for one pair around the whole (`Box.call_integerList`).
-/

namespace SearchBox

open Text Number

/-! ### Brackets -/

namespace Text

/-- The character is no bracket. -/
def isNoBracket (c : Char) : Bool := c != '[' && c != ']'

/-- The text without its brackets. -/
def withoutBrackets (cs : List Char) : List Char := cs.filter isNoBracket

/-- No bracket stands in the text. -/
def BracketFree (cs : List Char) : Prop := '[' ∉ cs ∧ ']' ∉ cs

/-- No bracket stands in the text, but for a pair around the whole. -/
def Framed (cs : List Char) : Prop :=
  BracketFree cs ∨ ∃ inside, cs = '[' :: (inside ++ [']']) ∧ BracketFree inside

variable {cs : List Char}

theorem withoutBrackets_of_free (h : BracketFree cs) : withoutBrackets cs = cs := by
  refine List.filter_eq_self.2 fun c hc => ?_
  rw [isNoBracket, Bool.and_eq_true, bne_iff_ne, bne_iff_ne]
  exact ⟨fun heq => h.1 (heq ▸ hc), fun heq => h.2 (heq ▸ hc)⟩

theorem withoutBrackets_bracketed (h : BracketFree cs) :
    withoutBrackets ('[' :: (cs ++ [']'])) = cs := by
  have hclose : [']'].filter isNoBracket = [] := rfl
  rw [withoutBrackets, List.filter_cons_of_neg (by decide), List.filter_append, hclose,
    List.append_nil, ← withoutBrackets, withoutBrackets_of_free h]

end Text

/-! ### Lists of integers -/

namespace Kind

/-- The integers that the list box finds in a text: in each piece it takes all brackets away. -/
def FindsIntegers (cs : List Char) (ns : List Int) : Prop :=
  List.Forall₂ (fun p n => Reader.readInteger (withoutBrackets p) = .ok n) (pieces ',' cs) ns

/-- The text is a list of at least one integer, with commas, in brackets or not. -/
def SpellsList (cs : List Char) (ns : List Int) : Prop :=
  ns ≠ [] ∧ ∃ vs, (cs = joined ',' vs ∨ cs = '[' :: (joined ',' vs ++ [']'])) ∧
    List.Forall₂ (fun v n => Reader.readInteger v = .ok n) vs ns

variable {cs : List Char} {ns : List Int}

/-- The members of a list hold no commas and no brackets. -/
theorem not_mem_of_spelled {vs : List (List Char)}
    (h : List.Forall₂ (fun v n => Reader.readInteger v = .ok n) vs ns) :
    (∀ v ∈ vs, ',' ∉ v) ∧ BracketFree (joined ',' vs) := by
  have hmember {c : Char} (hc : ¬ (isBlank c = true ∨ c = '-' ∨ c = '+' ∨ c.isDigit = true)) :
      ∀ v ∈ vs, c ∉ v := by
    intro v hv hmem
    obtain ⟨n, -, hn⟩ := exists_mem_of_mapM (mapM_of_forall₂ h) hv
    exact hc (Reader.mem_of_readInteger hn hmem)
  have hjoined {c : Char} (hc : ¬ (isBlank c = true ∨ c = '-' ∨ c = '+' ∨ c.isDigit = true))
      (hne : c ≠ ',') : c ∉ joined ',' vs := by
    intro hmem
    rcases mem_joined hmem with heq | ⟨v, hv, hmem⟩
    · exact hne heq
    · exact hmember hc v hv hmem
  exact ⟨hmember (by decide), hjoined (by decide) (by decide), hjoined (by decide) (by decide)⟩

theorem findsIntegers_iff : FindsIntegers cs ns ↔
    List.Forall₂ (fun v n => Reader.readInteger v = .ok n) (pieces ',' (withoutBrackets cs)) ns := by
  rw [withoutBrackets, pieces_filter rfl, List.forall₂_map_left_iff]
  rfl

theorem readIntegers_eq_ok : readIntegers cs = .ok ns ↔ FindsIntegers cs ns := by
  rw [findsIntegers_iff]
  exact ⟨forall₂_of_mapM, mapM_of_forall₂⟩

theorem FindsIntegers.ne_nil (h : FindsIntegers cs ns) : ns ≠ [] := by
  rintro rfl
  exact pieces_ne_nil ',' cs (List.forall₂_nil_right_iff.1 h)

/-- **A text in which the box finds integers is a list of them exactly if its brackets are one pair
around the whole, or none.** -/
theorem spellsList_iff : SpellsList cs ns ↔ FindsIntegers cs ns ∧ Framed cs := by
  constructor
  · rintro ⟨hne, vs, hcs, hread⟩
    obtain ⟨hcomma, hfree⟩ := not_mem_of_spelled hread
    have hvs : vs ≠ [] := by
      rintro rfl
      exact hne (List.forall₂_nil_left_iff.1 hread)
    have hpieces : pieces ',' (joined ',' vs) = vs := pieces_joined hvs hcomma
    rw [findsIntegers_iff]
    rcases hcs with rfl | rfl
    · rw [withoutBrackets_of_free hfree, hpieces]
      exact ⟨hread, .inl hfree⟩
    · rw [withoutBrackets_bracketed hfree, hpieces]
      exact ⟨hread, .inr ⟨_, rfl, hfree⟩⟩
  · rintro ⟨hfinds, hframed⟩
    have hread := findsIntegers_iff.1 hfinds
    rcases hframed with hfree | ⟨inside, rfl, hfree⟩
    · rw [withoutBrackets_of_free hfree] at hread
      exact ⟨hfinds.ne_nil, pieces ',' cs, .inl (joined_pieces ',' cs).symm, hread⟩
    · rw [withoutBrackets_bracketed hfree] at hread
      exact ⟨hfinds.ne_nil, pieces ',' inside, .inr (by rw [joined_pieces]), hread⟩

end Kind

/-! ### Calls -/

namespace Box

variable {store : List Int → Scalar} {form : Form} {q : Query} {args : Arguments}
  {field raw : String}

/-- **What the list box takes, and when that is a list.** Let a text be typed. It is taken if and only
if it has no blanks between digits and, once it is cleaned, every piece between commas is an integer
that fits when all brackets are taken out of it. Then these integers are stored in their order. What
was taken is a list of the integers that are stored, in brackets or not, if and only if no bracket
stands in it but one pair around the whole. -/
theorem call_integerList (ht : (Kind.integerList store).box.typed? form args = some (field, raw)) :
    let b := (Kind.integerList store).box
    let key := (b.contextOf args field).key
    let text := b.policy.prepare raw.toList
    let out := b.call form q args
    (∀ d, out.result = .ok () ∧ out.query = d ↔
      Cleaning.checkSpaces raw.toList = .ok () ∧
        ∃ ns, Kind.FindsIntegers text ns ∧ q.insert key (.value (store ns)) = d) ∧
    (out.result = .ok () →
      ((∃ ns, Kind.SpellsList text ns ∧ q.insert key (.value (store ns)) = out.query) ↔
        Framed text)) := by
  intro b key text out
  have hcall (d : Query) : out.result = .ok () ∧ out.query = d ↔
      Cleaning.checkSpaces raw.toList = .ok () ∧
        ∃ ns, Kind.FindsIntegers text ns ∧ q.insert key (.value (store ns)) = d := by
    rw [call_stored_iff rfl ht]
    refine and_congr_right fun _ => ?_
    constructor
    · rintro ⟨v, hv, rfl⟩
      obtain ⟨ns, hns, rfl⟩ := map_eq_ok.1 hv
      exact ⟨ns, Kind.readIntegers_eq_ok.1 hns, rfl⟩
    · rintro ⟨ns, hns, rfl⟩
      exact ⟨store ns, map_eq_ok.2 ⟨ns, Kind.readIntegers_eq_ok.2 hns, rfl⟩, rfl⟩
  refine ⟨hcall, fun hok => ⟨?_, fun hframed => ?_⟩⟩
  · rintro ⟨ns, hspells, -⟩
    exact (Kind.spellsList_iff.1 hspells).2
  · obtain ⟨-, ns, hfinds, hquery⟩ := (hcall _).1 ⟨hok, rfl⟩
    exact ⟨ns, Kind.spellsList_iff.2 ⟨hfinds, hframed⟩, hquery⟩

/-- A list in brackets with a sign and a space, and one whose brackets stand between two digits. -/
theorem call_integerList_brackets :
    let b := (Kind.integerList fun ns => .list (ns.map .integer)).box
    let form := Form.ofList [("m", "[1, +2]"), ("n", "1][2,3")]
    let m : Arguments := { field := some "m" }
    let n : Arguments := { field := some "n" }
    (b.typed? form m = some ("m", "[1, +2]") ∧ b.typed? form n = some ("n", "1][2,3")) ∧
    ((b.call form .empty m).result = .ok () ∧
      ∃ ns, Kind.SpellsList "[1,+2]".toList ns ∧
        .single "m" (.value (.list (ns.map .integer))) = (b.call form .empty m).query) ∧
    ((b.call form .empty n).result = .ok () ∧
      (b.call form .empty n).query = .single "n" (.value (.list [.integer 12, .integer 3])) ∧
      ¬ ∃ ns, Kind.SpellsList "1][2,3".toList ns ∧
        .single "n" (.value (.list (ns.map .integer))) = (b.call form .empty n).query) := by
  intro b form m n
  have hm : b.typed? form m = some ("m", "[1, +2]") := by decide
  have hn : b.typed? form n = some ("n", "1][2,3") := by decide
  obtain ⟨hcallm, hlistm⟩ := call_integerList (q := .empty) hm
  obtain ⟨hcalln, hlistn⟩ := call_integerList (q := .empty) hn
  have hokm := (hcallm _).2 ⟨by decide, [1, 2], .cons rfl (.cons rfl .nil), rfl⟩
  have hokn := (hcalln _).2 ⟨by decide, [12, 3], .cons rfl (.cons rfl .nil), rfl⟩
  have hframedm : Framed "[1,+2]".toList := .inr ⟨"1,+2".toList, by decide, by decide, by decide⟩
  have hframedn : ¬ Framed "1][2,3".toList := by
    rintro (⟨hopen, -⟩ | ⟨inside, heq, -⟩)
    · exact hopen (by decide)
    · cases heq
  exact ⟨⟨hm, hn⟩, ⟨hokm.1, (hlistm hokm.1).2 hframedm⟩, hokn.1, hokn.2,
    fun hlist => hframedn ((hlistn hokn.1).1 hlist)⟩

/-- Two digits with nothing but brackets between them are stored as one number, and were no list. -/
theorem integerList_fuses :
    let b := (Kind.integerList fun ns => .list (ns.map .integer)).box
    let o := b.call (.ofList [("n", "1][2")]) .empty { field := some "n" }
    o.result = .ok () ∧ o.query = .single "n" (.value (.list [.integer 12])) ∧
    b.policy.prepare "1][2".toList = "1][2".toList ∧ ¬ ∃ ns, Kind.SpellsList "1][2".toList ns := by
  intro b o
  refine ⟨rfl, rfl, by decide, ?_⟩
  rintro ⟨ns, hspells⟩
  rcases (Kind.spellsList_iff.1 hspells).2 with ⟨hopen, -⟩ | ⟨inside, heq, -⟩
  · exact hopen (by decide)
  · cases heq

end Box

end SearchBox
