import SearchBox.Proofs.Beginning
import SearchBox.Proofs.ListBox

/-!
# Exact prefixes

A column of texts may hold lists of integers, every integer in decimal and with the separator behind
it. Whatever spelling an integer is typed in, the box for the beginning of a text writes it in decimal
(`Sequence.Beginning.start_integers`), and it puts the separator behind the last one as well. So the
prefix is found at the front of a stored text exactly if the list of integers begins with the typed
ones (`Box.call_exactPrefix`).
-/

namespace SearchBox

open Text Number

namespace Sequence

namespace Beginning

/-! ### Prefixes of joined texts -/

/-- **Texts with a separator behind each begin alike if the lists do.** -/
theorem joined_prefix_iff {c : Char} {separator : List Char} {as bs : List (List Char)}
    (has : ∀ a ∈ as, c ∉ a) (hbs : ∀ b ∈ bs, c ∉ b) :
    joined (c :: separator) as <+: joined (c :: separator) bs ↔ as <+: bs := by
  induction as generalizing bs with
  | nil => simp [joined]
  | cons a as ih =>
    rw [List.forall_mem_cons] at has
    cases bs with
    | nil => simp [joined]
    | cons b bs =>
      rw [List.forall_mem_cons] at hbs
      have hcons (e : List Char) (es : List (List Char)) :
          joined (c :: separator) (e :: es) = e ++ c :: (separator ++ joined (c :: separator) es) := by
        simp [joined]
      rw [hcons, hcons, append_cons_prefix_iff has.1 hbs.1, List.prefix_append_right_inj,
        ih has.2 hbs.2, List.cons_prefix_cons]

/-- Integers in decimal with a separator behind each begin alike if the lists do. -/
theorem joined_decimal_prefix_iff {separator : List Char} (hne : separator ≠ [])
    (hfree : ∀ c ∈ separator, c ≠ '-' ∧ c.isDigit = false) (m s : List Int) :
    joined separator (m.map decimal) <+: joined separator (s.map decimal) ↔ m <+: s := by
  obtain ⟨c, separator, rfl⟩ := List.exists_cons_of_ne_nil hne
  obtain ⟨hminus, hdigit⟩ := hfree c List.mem_cons_self
  have hdecimal (ns : List Int) : ∀ a ∈ ns.map decimal, c ∉ a := by
    intro a ha
    obtain ⟨n, -, rfl⟩ := List.mem_map.1 ha
    exact (numeral_decimal n).not_mem hminus hdigit
  rw [joined_prefix_iff (hdecimal m) (hdecimal s),
    List.prefix_map_iff_of_injective decimal_injective]

end Beginning

/-! ### Typed integers -/

section TypedIntegers

variable {ts : List (List Char)} {m : List Int}
  (h : List.Forall₂ (fun t n => Reader.readInteger t = .ok n) ts m)

include h

theorem forall₂_trim : List.Forall₂ (fun t n => Reader.readInteger t = .ok n) (ts.map trim) m :=
  List.forall₂_map_left_iff.2 (h.imp fun _ _ hn => (Reader.readInteger_trim hn).1)

theorem exists_of_mem_typed {t : List Char} (ht : t ∈ ts) : ∃ n, Reader.readInteger t = .ok n := by
  obtain ⟨n, -, hn⟩ := exists_mem_of_mapM (mapM_of_forall₂ h) ht
  exact ⟨n, hn⟩

/-- Without the blanks at its ends, nothing of a typed integer is cleaned away. -/
theorem isStripped_of_mem_trim {t : List Char} (ht : t ∈ ts) :
    ∀ c ∈ trim t, Cleaning.isStripped false c = false := by
  intro c hc
  obtain ⟨n, hn⟩ := exists_of_mem_typed h ht
  rcases (Reader.readInteger_trim hn).2 c hc with rfl | rfl | hdigit
  · rfl
  · rfl
  · exact Cleaning.isStripped_of_isDigit (isDigit_of_isAsciiDigit hdigit)

theorem hasInnerDash_trim {t : List Char} (ht : t ∈ ts) : Beginning.hasInnerDash (trim t) = false := by
  obtain ⟨n, hn⟩ := exists_of_mem_typed h ht
  have hdigits := isDigit_of_mem_drop (Reader.orInvalid_eq_ok.1 hn)
  have hdash : '-' ∉ (trim t).drop 1 := fun hmem => absurd (hdigits '-' hmem) (by decide)
  simpa [Beginning.hasInnerDash] using hdash

/-! ### Groups of typed integers -/

theorem isPart_trim : IsPart ('[' :: (joined ',' (ts.map trim) ++ [']'])) := by
  refine .group (Kind.not_mem_of_spelled (forall₂_trim h)).2.2 fun c hc => ?_
  rcases mem_joined hc with rfl | ⟨e, he, hc⟩
  · rfl
  · obtain ⟨t, ht, rfl⟩ := List.mem_map.1 he
    exact isStripped_of_mem_trim h ht c hc

theorem checkSpaces_typed : Cleaning.checkSpaces ('[' :: (joined ',' ts ++ [']'])) = .ok () := by
  have hmember : ts.any Token.hasDigitGap = false := by
    refine List.any_eq_false.2 fun t ht => Bool.eq_false_iff.1 ?_
    rw [← Token.hasDigitGap_trim]
    exact Cleaning.hasDigitGap_of_not_blank fun c hc =>
      (Cleaning.isStripped_eq_false (isStripped_of_mem_trim h ht c hc)).2.2
  rw [Cleaning.checkSpaces_eq_ok, Token.hasDigitGap_cons_of_not_digit (by decide),
    Token.hasDigitGap_append_cons (by decide) (by decide),
    Token.hasDigitGap_joined (by decide) (by decide), hmember]
  rfl

theorem stripped_typed : Cleaning.stripped false ('[' :: (joined ',' ts ++ [']'])) =
    '[' :: (joined ',' (ts.map trim) ++ [']']) := by
  have hmember : ts.map (List.filter fun c => !Cleaning.isStripped false c) = ts.map trim := by
    refine List.map_congr_left fun t ht => ?_
    calc t.filter (fun c => !Cleaning.isStripped false c)
        = Cleaning.stripped false (trim t) := (Cleaning.stripped_trim t).symm
      _ = trim t := Cleaning.stripped_of_not_mem (isStripped_of_mem_trim h ht)
  rw [Cleaning.stripped_cons_of_kept (by decide), Cleaning.stripped_append, Cleaning.stripped,
    joined_filter (by decide), hmember]
  rfl

/-- The group names the integers, which are stored in decimal. -/
theorem starts_typed (hm : m ≠ []) (separator : List Char) :
    Beginning.Starts .integer separator ('[' :: (joined ',' (ts.map trim) ++ [']']))
      (Beginning.joined separator (m.map decimal)) := by
  have hne : ts.map trim ≠ [] := by
    intro hnil
    rw [List.map_eq_nil_iff.1 hnil] at h
    exact hm (List.forall₂_nil_left_iff.1 h)
  have htyped : typedElements ('[' :: (joined ',' (ts.map trim) ++ [']'])) = ts.map trim := by
    rw [typedElements_group, pieces_joined hne (Kind.not_mem_of_spelled (forall₂_trim h)).1]
  refine ⟨fun e he => ?_, fun e he => ?_, m.map .integer, ?_, ?_⟩
  · rintro rfl
    obtain ⟨n, hn⟩ := exists_of_mem_typed (forall₂_trim h) (htyped ▸ he)
    cases hn
  · obtain ⟨t, ht, rfl⟩ := List.mem_map.1 (htyped ▸ he)
    exact hasInnerDash_trim h ht
  · rw [htyped]
    exact mapM_of_forall₂ (List.forall₂_map_right_iff.2
      ((forall₂_trim h).imp fun _ _ hn => map_eq_ok.2 ⟨_, hn, rfl⟩))
  · rw [List.map_map]
    rfl

end TypedIntegers

end Sequence

open Sequence

namespace Box

variable {b : Sequence.Beginning} {form : Form} {q : Query} {args : Arguments} {field raw : String}

/-- **Prefixes of integers are exact.** Let the box for the beginning of a stored text have integers
for elements, no column for the first one and no leading ones, and a separator that has neither a digit
nor a dash, and is not empty. Let a group of at least one integer be typed, in whatever spelling. It is
accepted, and the prefix that the query gets is found at the front of the text for a list of integers,
each in decimal with the separator behind it, if and only if the list begins with the typed integers. -/
theorem call_exactPrefix (helement : b.element = .integer) (hfirst : b.firstField = none)
    (hleading : b.leading = []) (hseparator : b.separator ≠ "")
    (hfree : ∀ c ∈ b.separator.toList, c ≠ '-' ∧ c.isDigit = false)
    (ht : (Kind.beginning b).box.typed? form args = some (field, raw)) {ts : List (List Char)}
    {m : List Int} (hm : m ≠ [])
    (htyped : List.Forall₂ (fun t n => Reader.readInteger t = .ok n) ts m)
    (hraw : raw.toList = '[' :: (joined ',' ts ++ [']'])) :
    let box := (Kind.beginning b).box
    let key := (box.contextOf args field).key
    let out := box.call form q args
    let stored (s : List Int) := Beginning.joined b.separator.toList (s.map decimal)
    ∃ p, (out.result = .ok () ∧
        out.query = q.insert key (.operators { start := some (String.ofList p) })) ∧
      ∀ s : List Int, p <+: stored s ↔ m <+: s := by
  intro box key out stored
  let part := '[' :: (joined ',' (ts.map trim) ++ [']'])
  have hpart : parts (box.policy.prepare raw.toList) = [part] := by
    rw [hraw, prepare_eq_stripped rfl, stripped_typed htyped, (isPart_trim htyped).parts_eq]
  have hadmits : ∀ part ∈ parts (box.policy.prepare raw.toList), b.Admits part := fun _ _ => by
    simp [Beginning.Admits, hleading]
  have hlead : b.lead = [] := by rw [Beginning.lead, Beginning.leadingTexts, hleading]; rfl
  have hstarts := starts_typed htyped hm b.separator.toList
  refine ⟨stored m, ?_, Beginning.joined_decimal_prefix_iff ?_ hfree m⟩
  · refine (call_beginning_iff hfirst ht).2
      ⟨hraw ▸ checkSpaces_typed htyped, hadmits, [stored m], ?_, ?_⟩
    · rw [hpart, helement]
      exact .cons hstarts .nil
    · rw [hlead]
      exact Query.update_single q key _
  · simpa using hseparator

/-- A plus sign, a leading zero and a blank leave the prefix as it is, and its end is an end of the
second integer. -/
theorem call_exactPrefix_spellings :
    let form := Form.ofList [("n", "[+07, -3]")]
    let out := (Kind.beginning { separator := "." }).box.call form .empty { field := some "n" }
    out.result = .ok () ∧ ∃ p,
      out.query = .single "n" (.operators { start := some (String.ofList p) }) ∧
      p <+: "7.-3.12.".toList ∧ ¬ p <+: "7.-30.".toList := by
  intro form out
  have ht : (Kind.beginning { separator := "." }).box.typed? form { field := some "n" } =
      some ("n", "[+07, -3]") := rfl
  have htyped : List.Forall₂ (fun t n => Reader.readInteger t = .ok n)
      ["+07".toList, " -3".toList] [7, -3] := .cons rfl (.cons rfl .nil)
  have hraw : "[+07, -3]".toList =
      '[' :: (joined ',' ["+07".toList, " -3".toList] ++ [']']) := by decide
  obtain ⟨p, ⟨hok, hquery⟩, hexact⟩ := call_exactPrefix (q := .empty) rfl rfl rfl (by decide)
    (by simp) ht (by decide) htyped hraw
  have hlonger : Beginning.joined ".".toList ([7, -3, 12].map decimal) = "7.-3.12.".toList := by
    decide
  have hother : Beginning.joined ".".toList ([7, -30].map decimal) = "7.-30.".toList := by decide
  rw [← hlonger, ← hother]
  exact ⟨hok, p, hquery, (hexact [7, -3, 12]).2 (by decide),
    fun hp => absurd ((hexact [7, -30]).1 hp) (by decide)⟩

end Box

end SearchBox
