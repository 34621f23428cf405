import SearchBox.Config.Document
import SearchBox.Number.Integer
import SearchBox.Paging

/-!
# Configurations

A configuration describes a search form: its fields in order with a kind and options each, the pairs
of fields that are compiled together, the aliases for label fields, and the paging.
`Config.ofDocument?` reads one from a document, and `Config.check` says whether it makes sense.
-/

namespace SearchBox

/-- The kinds of fields that can be configured. -/
inductive FieldKind
  | integers
  | boundedIntegers
  | signedIntegers
  | doubles
  | rationals
  | rational
  | integerVector
  | rationalVector
  | integerList
  | truth
  | truthOrUnknown
  | choice
  | text
  | assignments
  | label
  | set
  | leading
  | beginning
  deriving DecidableEq, Inhabited

namespace FieldKind

/-- All kinds of fields. -/
def all : List FieldKind :=
  [integers, boundedIntegers, signedIntegers, doubles, rationals, rational, integerVector,
    rationalVector, integerList, truth, truthOrUnknown, choice, text, assignments, label, set,
    leading, beginning]

/-- The word for a kind. -/
def word : FieldKind → String
  | integers => "ints"
  | boundedIntegers => "ints_bounded"
  | signedIntegers => "signed_ints"
  | doubles => "floats"
  | rationals => "rats"
  | rational => "rational"
  | integerVector => "bracketed_posints"
  | rationalVector => "bracketed_rats"
  | integerList => "list"
  | truth => "bool"
  | truthOrUnknown => "bool_unknown"
  | choice => "restricted"
  | text => "noop"
  | assignments => "equality_constraints"
  | label => "label"
  | set => "subset"
  | leading => "list_start"
  | beginning => "string_start"

theorem mem_all (k : FieldKind) : k ∈ all := by
  cases k <;> decide

end FieldKind

/-- What a set field holds. -/
inductive ItemsKind
  | integers
  | labels
  deriving DecidableEq, Inhabited

/-- The word for what a set field holds. -/
def ItemsKind.word : ItemsKind → String
  | integers => "integers"
  | labels => "labels"

/-- What the elements of a field are. -/
inductive ElementKind
  | integer
  | text
  deriving DecidableEq, Inhabited

/-- The word for what the elements are. -/
def ElementKind.word : ElementKind → String
  | integer => "int"
  | text => "str"

/-- How a text is changed before it is stored. -/
inductive Transform
  | none
  | lower
  | upper
  deriving DecidableEq, Inhabited

/-- The word for a change. -/
def Transform.word : Transform → String
  | none => "none"
  | lower => "lower"
  | upper => "upper"

/-- The description of a field; every kind uses the options that it needs. -/
structure FieldConfig where
  name : String
  kind : FieldKind
  /-- The key of the query, when it is not the name. -/
  key : Option String := none
  /-- The name shown in messages. -/
  label : Option String := none
  min : Option Int := none
  max : Option Int := none
  exactLength : Option Nat := none
  mostLength : Option Nat := none
  allowed : List String := []
  blank : List String := []
  transform : Transform := .none
  letters : String := "a"
  shift : Int := 0
  items : ItemsKind := .integers
  mostOptions : Nat := 1000
  repeats : Bool := false
  mode : Option String := none
  /-- The field that holds the mode of a set. -/
  modeField : Option String := none
  /-- The column with the product of a set of integers. -/
  productField : Option String := none
  indexShift : Int := 0
  element : ElementKind := .integer
  separator : String := " "
  firstField : Option String := none
  leading : List String := []
  deriving Inhabited

/-- The key of the query under which a field is compiled. -/
def FieldConfig.queryKey (f : FieldConfig) : String := f.key.getD f.name

/-- The aliases of label fields. -/
structure AliasConfig where
  pattern : Option String := none
  names : List (String × String) := []

/-- The paging of the results. -/
structure PagingConfig where
  count : Int := Paging.standardCount
  start : Int := 0

/-- Two fields that are compiled together. -/
structure PairConfig where
  first : String
  second : String

/-- The description of a search form. -/
structure Config where
  paging : PagingConfig := {}
  aliases : Option AliasConfig := none
  fields : List FieldConfig := []
  pairs : List PairConfig := []

namespace Config

/-! ### Reading a document -/

open Document in
/-- The description of a field in a document. -/
def readField? (d : Document) : Option FieldConfig := do
  let r ← d.record?
  return {
    name := ← r.required 0 "name" string?
    kind := ← r.required 1 "kind" (oneOf? FieldKind.all FieldKind.word)
    key := ← r.optional 2 "qfield" string?
    label := ← r.optional 3 "label" string?
    min := ← r.optional 4 "min" integer?
    max := ← r.optional 5 "max" integer?
    exactLength := ← r.optional 6 "exactlength" natural?
    mostLength := ← r.optional 7 "maxlength" natural?
    allowed := ← r.withDefault 8 "allowed" [] (list? string?)
    blank := ← r.withDefault 9 "blank" [] (list? string?)
    transform := ← r.withDefault 10 "transform" .none
      (oneOf? [Transform.none, .lower, .upper] Transform.word)
    letters := ← r.withDefault 11 "prefix" "a" string?
    shift := ← r.withDefault 12 "shift" 0 integer?
    items := ← r.withDefault 13 "items" .integers
      (oneOf? [ItemsKind.integers, .labels] ItemsKind.word)
    mostOptions := ← r.withDefault 14 "max_options" 1000 natural?
    repeats := ← r.withDefault 15 "multiset" false truth?
    mode := ← r.optional 16 "mode" string?
    modeField := ← r.optional 17 "mode_field" string?
    productField := ← r.optional 18 "product_field" string?
    indexShift := ← r.withDefault 19 "index_shift" 0 integer?
    element := ← r.withDefault 20 "element" .integer
      (oneOf? [ElementKind.integer, .text] ElementKind.word)
    separator := ← r.withDefault 21 "sep" " " string?
    firstField := ← r.optional 22 "first_field" string?
    leading := ← r.withDefault 23 "initial_segment" [] (list? string?) }

open Document in
/-- The aliases in a document. -/
def readAliases? (d : Document) : Option AliasConfig := do
  let r ← d.record?
  return {
    pattern := ← r.optional 0 "label_pattern" string?
    names := ← r.withDefault 1 "names" [] (table? string?) }

open Document in
/-- The paging in a document. -/
def readPaging? (d : Document) : Option PagingConfig := do
  let r ← d.record?
  return {
    count := ← r.withDefault 0 "count" Paging.standardCount integer?
    start := ← r.withDefault 1 "start" 0 integer? }

open Document in
/-- A pair in a document. -/
def readPair? (d : Document) : Option PairConfig := do
  let r ← d.record?
  return {
    first := ← r.required 0 "first" string?
    second := ← r.required 1 "second" string? }

mutual

/-- Every integer of the document fits into 64 bits. -/
def fits : Document → Bool
  | .integer n => decide (Number.Fits n)
  | .array items => fitsAll items
  | .table entries => fitsEntries entries
  | _ => true

/-- Every integer of the documents fits into 64 bits. -/
def fitsAll : List Document → Bool
  | [] => true
  | d :: ds => fits d && fitsAll ds

/-- Every integer of the entries fits into 64 bits. -/
def fitsEntries : List (String × Document) → Bool
  | [] => true
  | (_, d) :: es => fits d && fitsEntries es

end

open Document in
/-- The configuration in a document, unless a part is missing or of the wrong kind. Parts without
meaning are passed over. -/
def ofDocument? (d : Document) : Option Config := do
  guard (fits d)
  let r ← d.record?
  return {
    paging := ← r.withDefault 0 "paging" {} readPaging?
    aliases := ← r.optional 1 "aliases" readAliases?
    fields := ← r.withDefault 2 "field" [] (list? readField?)
    pairs := ← r.withDefault 3 "pair" [] (list? readPair?) }

/-! ### Checking -/

/-- Why a configuration makes no sense. -/
inductive Fault
  | countNotPositive (count : Int)
  | repeatedField (name : String)
  | badBounds (name : String)
  | noAliases (name : String)
  | twoModes (name : String)
  | unknownPaired (name : String)
  | pairedTwice (name : String)
  deriving DecidableEq, Inhabited

/-- The wording of a fault. -/
def Fault.message : Fault → String
  | countNotPositive count => "paging.count must be positive, got " ++ Number.decimalText count
  | repeatedField name => "Field '" ++ name ++ "' is defined more than once"
  | badBounds name => "Field '" ++ name ++ "' needs min <= max"
  | noAliases name =>
    "Field '" ++ name ++ "' is a label field but no [aliases] table is configured"
  | twoModes name => "Field '" ++ name ++ "' sets both mode and mode_field"
  | unknownPaired name => "Pair refers to unknown field '" ++ name ++ "'"
  | pairedTwice name => "Field '" ++ name ++ "' appears in more than one pair"

/-- The field has a lower bound that is not above its upper bound. -/
def hasBounds (f : FieldConfig) : Bool :=
  match f.min, f.max with
  | some min, some max => min ≤ max
  | _, _ => false

/-- The options of a field fit its kind. -/
def checkField (c : Config) (f : FieldConfig) : Except Fault Unit :=
  if f.kind = .boundedIntegers && !hasBounds f then .error (.badBounds f.name)
  else if f.kind = .label && c.aliases.isNone then .error (.noAliases f.name)
  else if f.kind = .set && f.mode.isSome && f.modeField.isSome then .error (.twoModes f.name)
  else .ok ()

/-- The fields have different names, also from those in `seen`, and sensible options. -/
def checkFields (c : Config) (seen : List String) : List FieldConfig → Except Fault Unit
  | [] => .ok ()
  | f :: fs =>
    if seen.contains f.name then .error (.repeatedField f.name)
    else (c.checkField f).bind fun () => c.checkFields (f.name :: seen) fs

/-- The names of the fields, in order. -/
def names (c : Config) : List String := c.fields.map FieldConfig.name

/-- The names of the pairs, each first before its second. -/
def pairedNames (c : Config) : List String := c.pairs.flatMap fun p => [p.first, p.second]

/-- The paired names are those of fields and come once, also with those in `seen`. -/
def checkPaired (c : Config) (seen : List String) : List String → Except Fault Unit
  | [] => .ok ()
  | name :: rest =>
    if !c.names.contains name then .error (.unknownPaired name)
    else if seen.contains name then .error (.pairedTwice name)
    else c.checkPaired (name :: seen) rest

/-- The configuration makes sense; the first fault is reported. -/
def check (c : Config) : Except Fault Unit :=
  if c.paging.count ≤ 0 then .error (.countNotPositive c.paging.count)
  else (c.checkFields [] c.fields).bind fun () => c.checkPaired [] c.pairedNames

end Config

end SearchBox
