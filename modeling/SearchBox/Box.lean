import SearchBox.Cleaning
import SearchBox.Form
import SearchBox.Write

/-!
# Boxes

A `Box` compiles the text under one field of a form into a query. Its `compile` function does the work
for a cleaned text; its `Policy` says how the text is prepared, and what becomes of the form:

* a box without text changes nothing;
* a text that was compiled may be written back in its clean form;
* an error of the user is flashed once, and marks the form.
-/

namespace SearchBox

/-- How a box treats its text and its errors. -/
structure Policy where
  /-- The clean text is written back into the form. -/
  echoes : Bool := false
  /-- Two dots become a dash before the text is compiled. -/
  dashesDots : Bool := false
  /-- Plus signs are dropped before the text is compiled. -/
  dropsPlus : Bool := false
  /-- The shown name is passed to the compile function. -/
  passesName : Bool := false
  /-- Errors hold nothing that the user typed and are not escaped. -/
  trustsErrors : Bool := false
  /-- Blanks stay in the text. -/
  keepsSpaces : Bool := false
  /-- The field, when the call names none. -/
  field : Option String := none
  /-- The shown name, when the call gives none. -/
  name : Option String := none
  /-- The key of the query, when the call gives none. -/
  key : Option String := none
  deriving DecidableEq, Inhabited

/-- What a compile function learns about its box. -/
structure Context where
  key : String
  name : Option String

/-- A compile function writes what a clean text stands for into a query. -/
abbrev Compile := List Char → Context → Write

/-- A compile function with its policy. -/
structure Box where
  policy : Policy
  compile : Compile

/-- What a call says about the field, in place of the policy. -/
structure Arguments where
  field : Option String := none
  name : Option String := none
  key : Option String := none
  deriving Inhabited

/-- The form, the query and the result after a call. -/
structure Outcome where
  form : Form
  query : Query
  result : Except Error Unit

namespace Policy

/-- The text that is compiled, from one that passed the check on spaces. -/
def prepare (p : Policy) (raw : List Char) : List Char :=
  let clean := Cleaning.stripped p.keepsSpaces raw
  let dashed := if p.dashesDots then Cleaning.withDashes clean else clean
  if p.dropsPlus then Text.erase '+' dashed else dashed

/-- The message for a text that was refused. -/
def refusal (p : Policy) (input name : String) (e : Error) : String :=
  Form.refusal input name ++
    if p.trustsErrors then e.message ++ "."
    else String.ofList (Text.Entity.encode e.message.toList)

end Policy

namespace Box

/-- Compiles a text of a form, and gives the text as it was when the result came about. -/
def run (b : Box) (raw : List Char) (context : Context) (q : Query) :
    List Char × Query × Except Error Unit :=
  match Cleaning.checkSpaces raw with
  | .error e => (raw, q, .error e)
  | .ok () =>
    let text := b.policy.prepare raw
    let (q', result) := b.compile text context q
    (text, q', result)

/-- What becomes of the form after a text of the given field was compiled or refused. -/
def settle (b : Box) (form : Form) (field name : String) (text : List Char) :
    Except Error Unit → Form
  | .ok () => if b.policy.echoes then form.set field (String.ofList text) else form
  | .error e =>
    if e.isInput then (form.flash (b.policy.refusal (String.ofList text) name e)).mark else form

/-- Compiles the text of a field that is not empty. -/
def callOn (b : Box) (form : Form) (q : Query) (args : Arguments) (field raw : String) : Outcome :=
  let name := (args.name <|> b.policy.name).getD (Form.shownName field)
  let key := (args.key <|> b.policy.key).getD field
  let context : Context := { key, name := if b.policy.passesName then some name else none }
  let (text, q', result) := b.run raw.toList context q
  { form := b.settle form field name text result, query := q', result }

/-- Compiles the text of the box into a query. Without a field, or without a text in it, nothing
happens. -/
def call (b : Box) (form : Form) (q : Query) (args : Arguments) : Outcome :=
  match args.field <|> b.policy.field with
  | none => ⟨form, q, .ok ()⟩
  | some field =>
    match form.get? field with
    | none => ⟨form, q, .ok ()⟩
    | some raw =>
      if raw.isEmpty then ⟨form, q, .ok ()⟩ else b.callOn form q args field raw

end Box

end SearchBox
