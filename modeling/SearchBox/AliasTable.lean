import SearchBox.Error
import SearchBox.OrderedMap
import SearchBox.Pattern.Basic
import SearchBox.Text.Case

/-!
# Names for labels

An alias table turns what a user types into a label. Aliases are found without regard to case, and
an input that already is a label, as a pattern says, stands for itself. Before that, the minus sign
of mathematics becomes a dash, and all other characters outside of ASCII are dropped.
-/

namespace SearchBox

/-- Labels by lower-case alias, and the search for the pattern of inputs that are labels
themselves. -/
structure AliasTable where
  names : OrderedMap String := .empty
  pattern : Option Search := none
  deriving Inhabited

namespace AliasTable

/-- The table of a list of aliases with their labels. -/
def ofList (names : List (String × String)) (pattern : Option Search) : AliasTable :=
  { names := .ofList (names.map fun (name, label) =>
      (String.ofList (Text.lower name.toList), label))
    pattern }

/-- An input in ASCII. -/
def normalized (cs : List Char) : List Char :=
  (cs.map fun c => if c = '\u2212' then '-' else c).filter fun c => c.toNat < 128

/-- The wording for an input of which nothing is left. -/
def blankMessage : String :=
  "Entry was left blank. You need to enter a label or a known name."

/-- The wording for an unknown input. -/
def unknownMessage : String := "It is not a valid label or a known name."

/-- The input is a label: the match that is found begins and ends with it. -/
def isLabel (t : AliasTable) (cs : List Char) : Bool :=
  match t.pattern with
  | none => false
  | some search => search cs = some ([], [])

/-- The label that an input stands for. -/
def resolve (t : AliasTable) (raw : List Char) : Except Error String :=
  let input := normalized raw
  if input.isEmpty then .error (.unresolved blankMessage)
  else
    match t.names.get? (String.ofList (Text.lower input)) with
    | some label => .ok label
    | none =>
      if t.isLabel input then .ok (String.ofList input) else .error (.unresolved unknownMessage)

@[simp] theorem normalized_nil : normalized [] = [] := rfl

theorem lt_of_mem_normalized {c : Char} {cs : List Char} (h : c ∈ normalized cs) :
    c.toNat < 128 := by
  simpa using (List.mem_filter.1 h).2

end AliasTable

end SearchBox
