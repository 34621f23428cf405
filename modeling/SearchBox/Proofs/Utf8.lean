import SearchBox.Text.Basic

/-!
# Texts as bytes

An offset into a text counts the bytes of its UTF-8 form. An ASCII character is a single byte there,
and that byte is no part of any other character. So where the byte of an ASCII character stands, the
character itself stands, and the bytes before it are those of a whole text (`byteAt_iff`).
-/

namespace SearchBox.Text

variable {cs ds a a' b b' : List Char} {c d : Char} {i : Nat}

/-- The bytes of the text in UTF-8. -/
def utf8 (cs : List Char) : List UInt8 := cs.flatMap String.utf8EncodeChar

@[simp] theorem utf8_nil : utf8 [] = [] := rfl

@[simp] theorem utf8_cons (c : Char) (cs : List Char) :
    utf8 (c :: cs) = String.utf8EncodeChar c ++ utf8 cs :=
  List.flatMap_cons

@[simp] theorem utf8_append (cs ds : List Char) : utf8 (cs ++ ds) = utf8 cs ++ utf8 ds :=
  List.flatMap_append

@[simp] theorem length_utf8 (cs : List Char) : (utf8 cs).length = utf8Length cs := by
  induction cs with
  | nil => rfl
  | cons c cs ih =>
    rw [utf8_cons, List.length_append, String.length_utf8EncodeChar, ih, utf8Length_cons]

/-! ### Offsets of parts -/

theorem utf8Length_eq_zero : utf8Length cs = 0 ↔ cs = [] := by
  cases cs with
  | nil => simp
  | cons c cs =>
    have hpos := c.utf8Size_pos
    simp only [utf8Length_cons, reduceCtorEq, iff_false]
    omega

/-- Two beginnings of one text that have the same number of bytes are the same. -/
theorem append_inj_of_utf8Length (h : a ++ b = a' ++ b') (hlength : utf8Length a = utf8Length a') :
    a = a' ∧ b = b' := by
  have heq : a = a' := by
    rcases List.append_eq_append_iff.1 h with ⟨t, rfl, -⟩ | ⟨t, rfl, -⟩
    all_goals
      have ht : t = [] := utf8Length_eq_zero.1 (by rw [utf8Length_append] at hlength; omega)
      rw [ht, List.append_nil]
  subst heq
  exact ⟨rfl, List.append_cancel_left h⟩

theorem utf8Length_le_of_prefix (h : a <+: b) : utf8Length a ≤ utf8Length b := by
  obtain ⟨t, rfl⟩ := h
  rw [utf8Length_append]
  exact Nat.le_add_right _ _

/-- Where a part of a text ends there is a boundary between two characters. -/
theorem isValid_utf8Length (a b : List Char) :
    (⟨utf8Length a⟩ : String.Pos.Raw).IsValid (String.ofList (a ++ b)) := by
  have hsize : (String.ofList a).utf8ByteSize = utf8Length a := by
    rw [← length_utf8, ← List.size_toByteArray, String.utf8ByteSize, String.toByteArray_ofList]
    rfl
  rw [String.ofList_append, ← hsize]
  exact String.Pos.Raw.isValid_rawEndPos.append_right _

/-! ### ASCII characters -/

theorem toNat_lt_of_isDigit (h : c.isDigit = true) : c.toNat < 128 :=
  Nat.lt_of_le_of_lt (Char.isDigit_iff_toNat.1 h).2 (by decide)

theorem utf8Size_of_lt (hc : c.toNat < 128) : c.utf8Size = 1 :=
  Char.utf8Size_eq_one_iff.2 (UInt32.le_iff_toNat_le.2 (Nat.le_of_lt_succ hc))

theorem utf8EncodeChar_of_lt (hc : c.toNat < 128) : String.utf8EncodeChar c = [c.toUInt8] :=
  String.utf8EncodeChar_eq_singleton (utf8Size_of_lt hc)

theorem toNat_toUInt8_of_lt (hc : c.toNat < 128) : c.toUInt8.toNat = c.toNat := by
  rw [Char.toUInt8, UInt32.toNat_toUInt8]
  exact Nat.mod_eq_of_lt (Nat.lt_trans hc (by decide))

/-- All bytes of a character above the ASCII ones are above the ASCII ones. -/
theorem le_of_mem_utf8EncodeChar {x : UInt8} (hc : 128 ≤ c.toNat)
    (hx : x ∈ String.utf8EncodeChar c) : 128 ≤ x.toNat := by
  have hval : c.val.toNat = c.toNat := rfl
  unfold String.utf8EncodeChar at hx
  simp only [hval, if_neg (show ¬ c.toNat ≤ 127 by omega)] at hx
  -- The first byte has its highest bits set, and each other one its highest bit.
  split at hx
  · simp only [List.mem_cons, List.not_mem_nil, or_false] at hx
    rcases hx with rfl | rfl <;> rw [UInt8.toNat_ofNat'] <;> omega
  split at hx
  · simp only [List.mem_cons, List.not_mem_nil, or_false] at hx
    rcases hx with rfl | rfl | rfl <;> rw [UInt8.toNat_ofNat'] <;> omega
  · simp only [List.mem_cons, List.not_mem_nil, or_false] at hx
    rcases hx with rfl | rfl | rfl | rfl <;> rw [UInt8.toNat_ofNat'] <;> omega

/-- The byte of an ASCII character is no part of any other character. -/
theorem eq_of_toUInt8_mem (hc : c.toNat < 128) (h : c.toUInt8 ∈ String.utf8EncodeChar d) :
    c = d := by
  rcases Nat.lt_or_ge d.toNat 128 with hd | hd
  · rw [utf8EncodeChar_of_lt hd, List.mem_singleton] at h
    have hnat := congrArg UInt8.toNat h
    rw [toNat_toUInt8_of_lt hc, toNat_toUInt8_of_lt hd] at hnat
    exact Char.toNat_inj.1 hnat
  · have hle := le_of_mem_utf8EncodeChar hd h
    rw [toNat_toUInt8_of_lt hc] at hle
    omega

/-- The byte of the text at the offset is that of the character. -/
def ByteAt (cs : List Char) (i : Nat) (c : Char) : Prop := (utf8 cs)[i]? = some c.toUInt8

/-- **Where the byte of an ASCII character stands, that character begins.** -/
theorem byteAt_iff (hc : c.toNat < 128) :
    ByteAt cs i c ↔ ∃ a b, cs = a ++ c :: b ∧ utf8Length a = i := by
  constructor
  · intro h
    unfold ByteAt at h
    induction cs generalizing i with
    | nil => cases h
    | cons d cs ih =>
      rw [utf8_cons] at h
      rcases Nat.lt_or_ge i (String.utf8EncodeChar d).length with hi | hi
      · rw [List.getElem?_append_left hi] at h
        obtain rfl := eq_of_toUInt8_mem hc (List.mem_of_getElem? h)
        rw [utf8EncodeChar_of_lt hc, List.length_singleton] at hi
        exact ⟨[], cs, rfl, (Nat.lt_one_iff.1 hi).symm⟩
      · rw [List.getElem?_append_right hi] at h
        obtain ⟨a, b, rfl, ha⟩ := ih h
        rw [String.length_utf8EncodeChar] at hi ha
        exact ⟨d :: a, b, rfl, by rw [utf8Length_cons]; omega⟩
  · rintro ⟨a, b, rfl, rfl⟩
    rw [ByteAt, utf8_append, ← length_utf8, List.getElem?_append_right (Nat.le_refl _),
      Nat.sub_self, utf8_cons, utf8EncodeChar_of_lt hc]
    rfl

/-- Two ASCII characters in a row. -/
theorem byteAt_succ_iff (hc : c.toNat < 128) (hd : d.toNat < 128) :
    ByteAt cs i c ∧ ByteAt cs (i + 1) d ↔ ∃ a b, cs = a ++ c :: d :: b ∧ utf8Length a = i := by
  have hlength (a : List Char) : utf8Length (a ++ [c]) = utf8Length a + 1 := by
    rw [utf8Length_append, utf8Length_cons, utf8Size_of_lt hc, utf8Length_nil]
  rw [byteAt_iff hc, byteAt_iff hd]
  constructor
  · rintro ⟨⟨a, b, rfl, rfl⟩, a', b', h, ha'⟩
    rw [List.append_cons] at h
    obtain ⟨-, rfl⟩ := append_inj_of_utf8Length h ((hlength a).trans ha'.symm)
    exact ⟨a, b', rfl, rfl⟩
  · rintro ⟨a, b, rfl, rfl⟩
    exact ⟨⟨a, d :: b, rfl, rfl⟩, a ++ [c], b, by simp, hlength a⟩

end SearchBox.Text
