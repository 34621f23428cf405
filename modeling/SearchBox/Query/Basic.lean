import SearchBox.Constraint

/-!
# Queries

A query maps keys to constraints, all of which must hold, and may have a list of alternatives, one
of which must hold as well. A `Fragment` is what one token compiles to: a constraint on one key, or
alternatives.

`update` merges a second query into a first: its fields overwrite, and so do its alternatives when
it has some. `fold` merges a fragment.
-/

namespace SearchBox

/-- Constraints on fields, and alternatives of which one must hold. -/
structure Query where
  fields : OrderedMap Constraint := .empty
  alternatives : Option (List Query) := none
  deriving Inhabited

namespace Query

/-- The query that asks for nothing. -/
def empty : Query := { fields := .empty }

/-- The query with one field. -/
def single (key : String) (c : Constraint) : Query := { fields := .singleton key c }

/-- The query with alternatives only. -/
def anyOf (qs : List Query) : Query := { fields := .empty, alternatives := some qs }

/-- The constraint on a key. -/
def get? (q : Query) (key : String) : Option Constraint := q.fields.get? key

/-- The key is constrained. -/
def contains (q : Query) (key : String) : Bool := q.fields.contains key

/-- Constrains a key, in place of an earlier constraint on it. -/
def insert (q : Query) (key : String) (c : Constraint) : Query :=
  { q with fields := q.fields.insert key c }

/-- Drops the constraint on a key. -/
def erase (q : Query) (key : String) : Query := { q with fields := q.fields.erase key }

/-- Sets the alternatives, in place of earlier ones. -/
def setAlternatives (q : Query) (qs : List Query) : Query := { q with alternatives := some qs }

/-- Drops the alternatives. -/
def withoutAlternatives (q : Query) : Query := { q with alternatives := none }

/-- The query asks for nothing. -/
def isEmpty (q : Query) : Bool := q.fields.isEmpty && q.alternatives.isNone

/-- The fields of the second query overwrite, and so do its alternatives if it has some. -/
def update (a b : Query) : Query :=
  { fields := a.fields.merge b.fields, alternatives := b.alternatives <|> a.alternatives }

@[simp] theorem fields_insert (q : Query) (key : String) (c : Constraint) :
    (q.insert key c).fields = q.fields.insert key c := rfl

@[simp] theorem alternatives_insert (q : Query) (key : String) (c : Constraint) :
    (q.insert key c).alternatives = q.alternatives := rfl

@[simp] theorem fields_setAlternatives (q : Query) (qs : List Query) :
    (q.setAlternatives qs).fields = q.fields := rfl

@[simp] theorem alternatives_setAlternatives (q : Query) (qs : List Query) :
    (q.setAlternatives qs).alternatives = some qs := rfl

@[simp] theorem fields_update (a b : Query) :
    (a.update b).fields = a.fields.merge b.fields := rfl

@[simp] theorem alternatives_update (a b : Query) :
    (a.update b).alternatives = (b.alternatives <|> a.alternatives) := rfl

/-! ### Comparison -/

mutual

/-- The queries have the same fields, in any order, and equal alternatives. -/
def beq : Query → Query → Bool
  | ⟨fields, alternatives⟩, ⟨fields', alternatives'⟩ =>
    fields == fields' &&
      match alternatives, alternatives' with
      | none, none => true
      | some qs, some qs' => beqAll qs qs'
      | _, _ => false

/-- The lists have equal queries at every place. -/
def beqAll : List Query → List Query → Bool
  | [], [] => true
  | q :: qs, q' :: qs' => beq q q' && beqAll qs qs'
  | _, _ => false

end

instance : BEq Query := ⟨beq⟩

end Query

/-- What one token compiles to. -/
inductive Fragment
  | field (key : String) (c : Constraint)
  | anyOf (qs : List Query)
  deriving Inhabited

/-- The fragment as a query of its own. -/
def Fragment.query : Fragment → Query
  | field key c => .single key c
  | anyOf qs => .anyOf qs

/-- Merges a fragment: a field goes under its key, and alternatives replace earlier ones. -/
def Query.fold (q : Query) : Fragment → Query
  | .field key c => q.insert key c
  | .anyOf qs => q.setAlternatives qs

end SearchBox
