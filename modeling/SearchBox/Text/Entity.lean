/-!
# Character entities

A flashed message is markup, so text of the user goes into it with its five special characters
written as entities. `encode` writes them and `decode` reads them back (`decode_encode`).
-/

namespace SearchBox.Text.Entity

/-- The entity of a special character; any other character stands for itself. -/
def ofChar (c : Char) : List Char :=
  if c = '&' then "&amp;".toList
  else if c = '<' then "&lt;".toList
  else if c = '>' then "&gt;".toList
  else if c = '\x22' then "&quot;".toList
  else if c = '\x27' then "&#x27;".toList
  else [c]

/-- The text with its special characters as entities. -/
def encode (cs : List Char) : List Char := cs.flatMap ofChar

@[simp] theorem encode_nil : encode [] = [] := rfl

@[simp] theorem encode_cons (c : Char) (cs : List Char) : encode (c :: cs) = ofChar c ++ encode cs :=
  rfl

@[simp] theorem encode_append (cs ds : List Char) : encode (cs ++ ds) = encode cs ++ encode ds := by
  simp [encode]

/-- The text with the five entities read as characters. -/
def decode : List Char → List Char
  | '&' :: 'a' :: 'm' :: 'p' :: ';' :: rest => '&' :: decode rest
  | '&' :: 'l' :: 't' :: ';' :: rest => '<' :: decode rest
  | '&' :: 'g' :: 't' :: ';' :: rest => '>' :: decode rest
  | '&' :: 'q' :: 'u' :: 'o' :: 't' :: ';' :: rest => '\x22' :: decode rest
  | '&' :: '#' :: 'x' :: '2' :: '7' :: ';' :: rest => '\x27' :: decode rest
  | c :: rest => c :: decode rest
  | [] => []

theorem decode_ofChar_append (c : Char) (rest : List Char) :
    decode (ofChar c ++ rest) = c :: decode rest := by
  unfold ofChar
  split
  · subst_vars; simp [decode]
  split
  · subst_vars; simp [decode]
  split
  · subst_vars; simp [decode]
  split
  · subst_vars; simp [decode]
  split
  · subst_vars; simp [decode]
  · rename_i h _ _ _ _
    simp only [List.cons_append, List.nil_append]
    rw [decode] <;> simp_all

/-- Encoding loses nothing. -/
theorem decode_encode (cs : List Char) : decode (encode cs) = cs := by
  induction cs with
  | nil => simp [decode]
  | cons c cs ih => rw [encode_cons, decode_ofChar_append, ih]

end SearchBox.Text.Entity
