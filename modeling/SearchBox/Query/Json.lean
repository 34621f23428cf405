import SearchBox.Query.Basic

/-!
# Queries as JSON

A query becomes an object with its fields in order and its alternatives under `$or`. `Query.json`
builds the object as a map, so that a field named `$or` gives way to the alternatives, in its place;
`Query.jsonText` writes the members out one after the other.
-/

namespace SearchBox.Query

/-- The member that holds the alternatives. -/
def alternativesKey : String := "$or"

mutual

/-- The query as a JSON object. -/
def json : Query → Json
  | ⟨fields, alternatives⟩ =>
    let members : OrderedMap Json := .ofList (fields.entries.map fun e => (e.1, e.2.json))
    match alternatives with
    | none => .object members.entries
    | some qs => .object (members.insert alternativesKey (.array (jsonAll qs))).entries

/-- The queries as JSON objects. -/
def jsonAll : List Query → List Json
  | [] => []
  | q :: qs => json q :: jsonAll qs

end

mutual

/-- The query written as a JSON object. -/
def jsonText : Query → String
  | ⟨fields, alternatives⟩ =>
    let members := fields.entries.map fun e => Json.member e.1 e.2.jsonText
    match alternatives with
    | none => Json.braced members
    | some qs =>
      Json.braced (members ++ [Json.member alternativesKey (Json.bracketed (jsonTextAll qs))])

/-- The queries written as JSON objects. -/
def jsonTextAll : List Query → List String
  | [] => []
  | q :: qs => jsonText q :: jsonTextAll qs

end

end SearchBox.Query
