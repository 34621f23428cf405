import SearchBox.Config.Basic
import SearchBox.Conjunction
import SearchBox.Kind

/-!
# Registries

A registry holds the boxes of a configured form in their order, and the pairs among them.
`Registry.ofConfig` builds it, with whatever engine compiles the pattern of the labels, and
`Registry.compile` compiles a form box by box into one query. A pair is compiled at the place of its
first box, and the first error ends the work.
-/

namespace SearchBox

/-- Where the kind of an entry comes from. -/
inductive Source
  | fixed (k : Kind)
  /-- A set whose mode is the text of another field. -/
  | setByField (items : SetItems) (column : Option (DerivedColumn Int)) (modeField : String)

/-- A configured box. -/
structure Entry where
  name : String
  kind : FieldKind
  key : String
  label : Option String
  source : Source

namespace Entry

/-- The kind of the box, given what the form holds. -/
def kindIn (e : Entry) (form : Form) : Kind :=
  match e.source with
  | .fixed k => k
  | .setByField items column modeField =>
    .setByName items ((form.get? modeField).getD "") column

/-- The box and how it is called. -/
def side (e : Entry) (form : Form) : Conjunction.Side :=
  { box := (e.kindIn form).box
    args := { field := some e.name, name := e.label, key := some e.key } }

/-- The name under which the box is listed. -/
def title (e : Entry) : String := e.label.getD (Form.shownName e.name)

end Entry

/-- The boxes of a form, and each pair of them by the name of the first box. -/
structure Registry where
  entries : List Entry
  pairs : List (String × Entry)

namespace Registry

/-! ### Building -/

/-- Why the box of a field cannot be built. -/
inductive BoxFault
  | noMin
  | noMax
  | noAliases
  | badMode (e : Error)
  deriving DecidableEq, Inhabited

/-- The wording of such a fault. -/
def BoxFault.message : BoxFault → String
  | noMin => "ints_bounded needs min"
  | noMax => "ints_bounded needs max"
  | noAliases => "label fields need an [aliases] table"
  | badMode e => e.message

/-- Why a registry cannot be built. -/
inductive Fault
  | badPattern (pattern : String)
  | badField (name : String) (cause : BoxFault)
  | unknownPaired (name : String)
  deriving DecidableEq, Inhabited

/-- The wording of a fault. -/
def Fault.message : Fault → String
  | badPattern pattern => "Invalid aliases.label_pattern: " ++ pattern
  | badField name _ => "Failed to build parser for field '" ++ name ++ "'"
  | unknownPaired name => "Pair refers to unknown field '" ++ name ++ "'"

/-- The alias table of a configuration. -/
def aliasTable (engine : SearchEngine) (c : AliasConfig) : Except Fault AliasTable :=
  match c.pattern with
  | none => .ok (.ofList c.names none)
  | some text =>
    match engine text with
    | some search => .ok (.ofList c.names (some search))
    | none => .error (.badPattern text)

/-- A text as it is stored. -/
def stored (t : Transform) (s : String) : Scalar :=
  match t with
  | .none => .string s
  | .lower => .string (String.ofList (Text.lower s.toList))
  | .upper => .string (String.ofList (Text.upper s.toList))

/-- The elements of a sequence field. -/
def element : ElementKind → Sequence.Element
  | .integer => .integer
  | .text => .text

/-- The items of a set field. -/
def setItems (f : FieldConfig) : SetItems :=
  match f.items with
  | .integers => .integers f.mostOptions
  | .labels => .labels f.repeats

/-- The source of a set field: its mode is fixed, or read from another field. -/
def setSource (f : FieldConfig) : Except BoxFault Source :=
  let column : Option (DerivedColumn Int) :=
    f.productField.map fun field => { field, derive := DerivedColumn.product }
  match f.modeField with
  | some modeField => .ok (.setByField (setItems f) column modeField)
  | none =>
    match SetMode.ofName (f.mode.getD "") with
    | .ok mode => .ok (.fixed (.set (setItems f) mode column))
    | .error e => .error (.badMode e)

/-- The source of a field. -/
def source (aliases : Option AliasTable) (f : FieldConfig) : Except BoxFault Source :=
  match f.kind with
  | .integers => .ok (.fixed .integers)
  | .boundedIntegers =>
    match f.min, f.max with
    | none, _ => .error .noMin
    | some _, none => .error .noMax
    | some min, some max => .ok (.fixed (.boundedIntegers min max))
  | .signedIntegers => .ok (.fixed .signedIntegers)
  | .doubles => .ok (.fixed .doubles)
  | .rationals => .ok (.fixed .rationals)
  | .rational => .ok (.fixed .rational)
  | .integerVector => .ok (.fixed (.integerVector f.exactLength f.mostLength))
  | .rationalVector => .ok (.fixed .rationalVector)
  | .integerList => .ok (.fixed (.integerList fun ns => .list (ns.map .integer)))
  | .truth => .ok (.fixed (.truth f.blank .bool))
  | .truthOrUnknown => .ok (.fixed .truthOrUnknown)
  | .choice => .ok (.fixed (.choice f.allowed f.blank (stored f.transform)))
  | .text => .ok (.fixed (.text (stored f.transform)))
  | .assignments =>
    .ok (.fixed (.assignments f.letters f.shift (element f.element).reader))
  | .label =>
    match aliases with
    | none => .error .noAliases
    | some table => .ok (.fixed (.label table.resolve))
  | .set => setSource f
  | .leading => .ok (.fixed (.leading ⟨f.indexShift, element f.element⟩))
  | .beginning =>
    .ok (.fixed (.beginning ⟨f.separator, f.firstField, element f.element, f.leading⟩))

/-- The entry of a field. -/
def entry (aliases : Option AliasTable) (f : FieldConfig) : Except Fault Entry :=
  match source aliases f with
  | .error cause => .error (.badField f.name cause)
  | .ok source => .ok { name := f.name, kind := f.kind, key := f.queryKey, label := f.label, source }

/-- The second entry of a pair, by the name of the first. -/
def pairOf (entries : List Entry) (p : PairConfig) : Except Fault (String × Entry) :=
  match entries.find? (·.name = p.second) with
  | some e => .ok (p.first, e)
  | none => .error (.unknownPaired p.second)

/-- The entries of the fields and their pairs. -/
def build (c : Config) (aliases : Option AliasTable) : Except Fault Registry :=
  (c.fields.mapM (entry aliases)).bind fun entries =>
    (c.pairs.mapM (pairOf entries)).map fun pairs => { entries, pairs }

/-- The registry of a configuration. -/
def ofConfig (engine : SearchEngine) (c : Config) : Except Fault Registry :=
  match c.aliases with
  | none => build c none
  | some a => (aliasTable engine a).bind fun table => build c (some table)

/-! ### Compiling -/

/-- The entry that is compiled together with the one of the given name: that of the last pair which
begins so. -/
def partner? (r : Registry) (name : String) : Option Entry := r.pairs.reverse.lookup name

/-- The entry is compiled together with one that is named first. -/
def isSecond (r : Registry) (name : String) : Bool := r.pairs.any (·.2.name = name)

/-- The entry belongs to a pair. -/
def isPaired (r : Registry) (name : String) : Bool := (r.partner? name).isSome || r.isSecond name

/-- Compiles an entry into a query, with its partner if it has one. The second entries of pairs have
their turn with the first ones. -/
def compileEntry (r : Registry) (form : Form) (q : Query) (e : Entry) : Outcome :=
  if r.isSecond e.name then ⟨form, q, .ok ()⟩
  else
    let side := e.side form
    match r.partner? e.name with
    | some partner => Conjunction.call form q side (partner.side form)
    | none => side.box.call form q side.args

/-- Compiles entries one after the other, up to the first error. -/
def compileEntries (r : Registry) (form : Form) (q : Query) : List Entry → Outcome
  | [] => ⟨form, q, .ok ()⟩
  | e :: es =>
    let o := r.compileEntry form q e
    match o.result with
    | .ok () => r.compileEntries o.form o.query es
    | .error err => ⟨o.form, o.query, .error err⟩

/-- Compiles all boxes of a form into one query, and gives the form as the boxes leave it. -/
def compile (r : Registry) (form : Form) : Form × Except Error Query :=
  let o := r.compileEntries form .empty r.entries
  (o.form, o.result.map fun () => o.query)

end Registry

end SearchBox
