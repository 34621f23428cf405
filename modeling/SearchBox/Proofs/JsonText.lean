import SearchBox.Query.Json
import SearchBox.Proofs.OrderedMap

/-!
# The written query

The JSON of a query is made twice: `Query.json` builds a value, whose `Json.text` can be taken, and
`Query.jsonText` writes the text at once. Both walk through scalars, operators, constraints and
nested queries, so the texts are compared kind by kind (`Scalar.text_json`, `Operators.text_json`,
`Constraint.text_json`).

For a query, the object that is written has the fields in their order and the alternatives behind
them, at every level: `Query.listed`. Its text is `Query.jsonText` of any query (`text_listed`). The
value that is built is the same object unless a field is named like the alternatives, whose member
then takes the place of the field (`json_eq_listed`).
-/

namespace SearchBox

namespace Json

theorem itemTexts_eq_map (vs : List Json) : itemTexts vs = vs.map text := by
  induction vs with
  | nil => simp [itemTexts]
  | cons v vs ih => simp [itemTexts, ih]

theorem memberTexts_eq_map (ms : List (String × Json)) :
    memberTexts ms = ms.map fun e => member e.1 e.2.text := by
  induction ms with
  | nil => simp [memberTexts]
  | cons e ms ih => simp [memberTexts, ih]

@[simp] theorem text_array (vs : List Json) : (array vs).text = bracketed (vs.map text) := by
  rw [text, itemTexts_eq_map]

@[simp] theorem text_object (ms : List (String × Json)) :
    (object ms).text = braced (ms.map fun e => member e.1 e.2.text) := by
  rw [text, memberTexts_eq_map]

end Json

/-! ### Constraints -/

namespace Scalar

mutual

/-- The value of a scalar is written as the scalar is. -/
@[simp] theorem text_json (v : Scalar) : v.json.text = v.jsonText := by
  cases v with
  | bool b => simp [json, jsonText, Json.text]
  | integer n => simp [json, jsonText, Json.text]
  | double x =>
    -- a double that is not finite is `null` in the value, and is written `null` in the text
    by_cases h : x.isFinite = true
    · simp [json, jsonText, Json.text, h]
    · simp [json, jsonText, Json.text, Json.doubleText, h]
  | rational q => simp [json, jsonText, Json.text]
  | string s => simp [json, jsonText, Json.text]
  | list items => rw [json, jsonText, Json.text_array, map_text_jsonItems]

/-- The values of a list of scalars are written as the scalars are. -/
@[simp] theorem map_text_jsonItems (vs : List Scalar) :
    (jsonItems vs).map Json.text = jsonTextItems vs := by
  cases vs with
  | nil => simp [jsonItems, jsonTextItems]
  | cons v vs => simp [jsonItems, jsonTextItems, text_json v, map_text_jsonItems vs]

end

end Scalar

namespace Operators

/-- One condition with its value is written as the condition with its text. -/
theorem map_memberOf {α : Type} (key : String) (value : Option α) (f : α → Json) (g : α → String)
    (h : ∀ v, (f v).text = g v) :
    (memberOf key value f).map (fun e => Json.member e.1 e.2.text) =
      (memberOf key value g).map fun e => Json.member e.1 e.2 := by
  cases value with
  | none => rfl
  | some v => simp [memberOf, h]

/-- The object of the conditions is written as the conditions are. -/
@[simp] theorem text_json : (o : Operators) → o.json.text = o.jsonText
  | ⟨min, max, contains, excludes, containedIn, all, element, start⟩ => by
    have harray (items : List Scalar) : (Json.array (Scalar.jsonItems items)).text =
        Json.bracketed (Scalar.jsonTextItems items) := by simp
    -- the equations of `json` are split on `element`, which only one of the eight members reads
    rw [json.eq_def, jsonText.eq_def]
    simp only [Json.text_object, List.map_append]
    rw [map_memberOf "$gte" min _ _ Scalar.text_json, map_memberOf "$lte" max _ _ Scalar.text_json,
      map_memberOf "$contains" contains _ _ harray, map_memberOf "$notcontains" excludes _ _ harray,
      map_memberOf "$containedin" containedIn _ _ harray, map_memberOf "$all" all _ _ harray,
      map_memberOf "$startswith" start _ Json.quoted fun s => by rw [Json.text]]
    cases element with
    | none => rfl
    | some e => simp [text_json e]

end Operators

/-- The value of a constraint is written as the constraint is. -/
@[simp] theorem Constraint.text_json (c : Constraint) : c.json.text = c.jsonText := by
  cases c with
  | value v => exact v.text_json
  | operators o => exact o.text_json

/-! ### Queries -/

namespace Query

mutual

/-- The names of all fields, at any depth. -/
def names : Query → List String
  | ⟨fields, alternatives⟩ =>
    fields.keys ++
      match alternatives with
      | none => []
      | some qs => namesAll qs

/-- The names of all fields of the queries. -/
def namesAll : List Query → List String
  | [] => []
  | q :: qs => names q ++ namesAll qs

end

/-- The fields of a query as members of an object, in their order. -/
def fieldMembers (fields : OrderedMap Constraint) : List (String × Json) :=
  fields.entries.map fun e => (e.1, e.2.json)

mutual

/-- The object with the fields in their order and the alternatives behind them, at every level. -/
def listed : Query → Json
  | ⟨fields, alternatives⟩ =>
    .object (fieldMembers fields ++
      match alternatives with
      | none => []
      | some qs => [(alternativesKey, .array (listedAll qs))])

/-- The objects of the queries, fields first and alternatives last. -/
def listedAll : List Query → List Json
  | [] => []
  | q :: qs => listed q :: listedAll qs

end

/-- The members of the fields are written as the fields are. -/
theorem map_fieldMembers (fields : OrderedMap Constraint) :
    (fieldMembers fields).map (fun e => Json.member e.1 e.2.text) =
      fields.entries.map fun e => Json.member e.1 e.2.jsonText := by
  simp [fieldMembers]

mutual

/-- A query is written as the object with its fields in order and its alternatives last. -/
theorem text_listed (q : Query) : q.listed.text = q.jsonText := by
  obtain ⟨fields, _ | qs⟩ := q
  · simp only [listed, jsonText, Json.text_object, List.append_nil, map_fieldMembers]
  · simp only [listed, jsonText, Json.text_object, List.map_append, map_fieldMembers, List.map_cons,
      List.map_nil, Json.text_array, map_text_listedAll qs]

/-- The alternatives are written as the objects with their fields in order. -/
theorem map_text_listedAll (qs : List Query) : (listedAll qs).map Json.text = jsonTextAll qs := by
  cases qs with
  | nil => simp [listedAll, jsonTextAll]
  | cons q qs => simp [listedAll, jsonTextAll, text_listed q, map_text_listedAll qs]

end

theorem map_fst_fieldMembers (fields : OrderedMap Constraint) :
    (fieldMembers fields).map Prod.fst = fields.keys := by
  simp [fieldMembers, OrderedMap.keys, Function.comp_def]

/-- The map that is built from the fields has their members in their order. -/
theorem entries_ofList_fieldMembers (fields : OrderedMap Constraint) :
    (OrderedMap.ofList (fieldMembers fields)).entries = fieldMembers fields :=
  OrderedMap.entries_ofList (by rw [map_fst_fieldMembers]; exact fields.nodup_keys)

/-- Where no field has the name of the alternatives, they are appended to the fields. -/
theorem entries_insert_fieldMembers {fields : OrderedMap Constraint} (v : Json)
    (h : alternativesKey ∉ fields.keys) :
    ((OrderedMap.ofList (fieldMembers fields)).insert alternativesKey v).entries =
      fieldMembers fields ++ [(alternativesKey, v)] := by
  have hkey : alternativesKey ∉ (OrderedMap.ofList (fieldMembers fields)).keys := by
    rwa [OrderedMap.mem_keys_ofList, map_fst_fieldMembers]
  rw [OrderedMap.entries_insert_of_not_mem v hkey, entries_ofList_fieldMembers]

mutual

/-- Where no field has the name of the alternatives, the value that is built has the fields in order
and the alternatives last, at every level. -/
theorem json_eq_listed (q : Query) (h : alternativesKey ∉ q.names) : q.json = q.listed := by
  obtain ⟨fields, _ | qs⟩ := q
  · simp only [json, listed, List.append_nil]
    exact congrArg Json.object (entries_ofList_fieldMembers fields)
  · obtain ⟨hfields, hqs⟩ : alternativesKey ∉ fields.keys ∧ alternativesKey ∉ namesAll qs := by
      simpa only [names, List.mem_append, not_or] using h
    simp only [json, listed, jsonAll_eq_listedAll qs hqs]
    exact congrArg Json.object (entries_insert_fieldMembers _ hfields)

/-- The same for each of the queries. -/
theorem jsonAll_eq_listedAll (qs : List Query) (h : alternativesKey ∉ namesAll qs) :
    jsonAll qs = listedAll qs := by
  cases qs with
  | nil => simp [jsonAll, listedAll]
  | cons q qs =>
    obtain ⟨hq, hqs⟩ : alternativesKey ∉ q.names ∧ alternativesKey ∉ namesAll qs := by
      simpa only [namesAll, List.mem_append, not_or] using h
    simp only [jsonAll, listedAll, json_eq_listed q hq, jsonAll_eq_listedAll qs hqs]

end

/-- The text of the value that is built is the text that is written, and the value has the fields in
their order and the alternatives last at every level. -/
theorem json_written (q : Query) (h : alternativesKey ∉ q.names) :
    q.json.text = q.jsonText ∧ q.json = q.listed := by
  have hlisted : q.json = q.listed := json_eq_listed q h
  exact ⟨by rw [hlisted, text_listed], hlisted⟩

/-- A query with a bound and a NaN whose first alternative has alternatives of its own. -/
def twofold : Query :=
  { fields := .ofList
      [("deg", .range (some (.integer 2)) none), ("x", .value (.double ⟨0x7ff8000000000000⟩))]
    alternatives := some [
      { fields := .ofList [("q", .value (.rational ⟨-3, 4, by decide, by decide⟩))]
        alternatives := some [.single "r" (.value (.list [.bool true])), .empty] },
      .single "s" (.operators { all := some [], element := some (.starting "a") })] }

/-- Alternatives inside alternatives come last at both levels. -/
theorem json_written_twofold : alternativesKey ∉ twofold.names ∧
    twofold.json.text = twofold.jsonText ∧
    twofold.json = .object [
      ("deg", .object [("$gte", .integer 2)]),
      ("x", .null),
      ("$or", .array [
        .object [("q", .string "-3/4"), ("$or", .array [
          .object [("r", .array [.bool true])],
          .object []])],
        .object [("s", .object [
          ("$all", .array []), ("$elemMatch", .object [("$startswith", .string "a")])])]])] := by
  have hnames : alternativesKey ∉ twofold.names := by decide
  obtain ⟨htext, hlisted⟩ := json_written twofold hnames
  exact ⟨hnames, htext, hlisted.trans rfl⟩

/-- A field with the name of the alternatives is overwritten in the value, and not in the text. -/
example : ((single alternativesKey (.value (.integer 1))).setAlternatives []).json.text ≠
    ((single alternativesKey (.value (.integer 1))).setAlternatives []).jsonText := by
  decide +kernel

end Query

end SearchBox
