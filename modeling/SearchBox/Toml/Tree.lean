import SearchBox.Config.Document

/-!
# Tables under construction

A table of a document grows line by line, and a line may only add to a table that is still open. A
node therefore remembers how its table came about:

* `put?` stores a value under a dotted key, and opens the tables on the way;
* `openTable?` and `openNext?` start the table of a header, or the next one of an array of tables;
* `document` is the finished table.

No step changes a value that is already there.
-/

namespace SearchBox.Toml

/-- How a table came about. -/
inductive Origin
  /-- It lies on the way to the table of a header. -/
  | implied
  /-- It lies on the way to the value of a dotted key. -/
  | dotted
  /-- It has a header of its own. -/
  | header
  deriving DecidableEq, Inhabited

/-- A value, a table, or an array of tables with the newest in front. -/
inductive Node
  | value (d : Document)
  | table (origin : Origin) (entries : List (String × Node))
  | tables (newest : List (String × Node)) (older : List (List (String × Node)))
  deriving Inhabited

/-- The entries of a table, in order. -/
abbrev Entries := List (String × Node)

/-- A change of a table, which may be refused. -/
abbrev Change := Entries → Option Entries

/-- Changes the entry of a key, or adds it at the end. -/
def alter (key : String) (change : Option Node → Option Node) : Change
  | [] => (change none).map fun n => [(key, n)]
  | (k, n) :: es =>
    if k = key then (change (some n)).map fun n => (k, n) :: es
    else (alter key change es).map ((k, n) :: ·)

/-- Changes the table at a path. A missing table is made with the given origin, and a dotted key
does not enter a table that has a header. -/
def within (origin : Origin) (change : Change) : List String → Change
  | [], es => change es
  | key :: path, es =>
    alter key
      (fun n =>
        match n with
        | none => (within origin change path []).map (.table origin)
        | some (.table o inner) =>
          if origin = .dotted && o = .header then none
          else (within origin change path inner).map (.table o)
        | some (.tables newest older) =>
          if origin = .dotted then none
          else (within origin change path newest).map (.tables · older)
        | some (.value _) => none)
      es

/-- Changes the entry at a path that is not empty. -/
def atEntry (origin : Origin) (change : Option Node → Option Node) (path : List String) : Change :=
  match path.getLast? with
  | none => fun _ => none
  | some key => within origin (alter key change) path.dropLast

/-- Stores a value under a dotted key that is not in use. -/
def put? (path : List String) (d : Document) : Change :=
  atEntry .dotted
    (fun n =>
      match n with
      | none => some (.value d)
      | some _ => none)
    path

/-- Starts the table of a header, which comes once. -/
def openTable? (path : List String) : Change :=
  atEntry .implied
    (fun n =>
      match n with
      | none => some (.table .header [])
      | some (.table .implied es) => some (.table .header es)
      | some _ => none)
    path

/-- Starts the next table of an array of tables. -/
def openNext? (path : List String) : Change :=
  atEntry .implied
    (fun n =>
      match n with
      | none => some (.tables [] [])
      | some (.tables newest older) => some (.tables [] (newest :: older))
      | some _ => none)
    path

/-! ### The finished table -/

mutual

/-- The value of a node. -/
def Node.document : Node → Document
  | .value d => d
  | .table _ es => .table (entryDocuments es)
  | .tables newest older => .array (.table (entryDocuments newest) :: tableDocuments older).reverse

/-- The values of entries. -/
def entryDocuments : List (String × Node) → List (String × Document)
  | [] => []
  | (k, n) :: es => (k, n.document) :: entryDocuments es

/-- The values of several tables. -/
def tableDocuments : List (List (String × Node)) → List Document
  | [] => []
  | es :: rest => .table (entryDocuments es) :: tableDocuments rest

end

/-- The document of a table. -/
def document (es : Entries) : Document := .table (entryDocuments es)

end SearchBox.Toml
