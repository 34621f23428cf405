import SearchBox.Box

/-!
# Paired boxes

Two boxes that belong together are compiled apart, and every alternative of the one is joined with
every alternative of the other. A box that asks for nothing leaves the other one as it is, a single
joined alternative is merged into the query, and several become its alternatives.
-/

namespace SearchBox

namespace Conjunction

/-- The alternatives of a side: its own, or itself as the only one, or none if it asks for nothing. -/
def sides (q : Query) : Except Error (List Query) :=
  if q.alternatives.isSome && !q.fields.isEmpty then
    .error (.misuse "paired field compiled to both a disjunction and plain fields")
  else
    match q.alternatives with
    | some qs => .ok qs
    | none => .ok (if q.isEmpty then [] else [q])

/-- Two alternatives as one, unless both constrain some key. -/
def join (a b : Query) : Except Error Query :=
  match b.fields.keys.find? a.contains with
  | some key => .error (.overlap key)
  | none => .ok (a.update b)

/-- Every left alternative with every right one, the left ones varying slowest. -/
def joinAll (left right : List Query) : Except Error (List Query) :=
  (left.mapM fun a => right.mapM (join a)).map List.flatten

/-- The alternatives of both sides together. -/
def combine (left right : Query) : Except Error (List Query) :=
  (sides left).bind fun ls =>
    (sides right).bind fun rs =>
      if ls.isEmpty then .ok rs else if rs.isEmpty then .ok ls else joinAll ls rs

/-- Merges the joined alternatives into a query. -/
def absorb (q : Query) : List Query → Query
  | [] => q
  | [c] => q.update c
  | cs => q.setAlternatives cs

/-- A box and how it is called. -/
structure Side where
  box : Box
  args : Arguments

/-- Compiles two boxes and merges their conjunction into a query. A failure leaves the query as it
was; the form keeps what the calls did to it. -/
def call (form : Form) (q : Query) (first second : Side) : Outcome :=
  let left := first.box.call form .empty first.args
  match left.result with
  | .error e => ⟨left.form, q, .error e⟩
  | .ok () =>
    let right := second.box.call left.form .empty second.args
    match right.result with
    | .error e => ⟨right.form, q, .error e⟩
    | .ok () =>
      match combine left.query right.query with
      | .error e => ⟨right.form, q, .error e⟩
      | .ok cs => ⟨right.form, absorb q cs, .ok ()⟩

end Conjunction

end SearchBox
