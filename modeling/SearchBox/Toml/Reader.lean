import SearchBox.Toml.Value

/-!
# TOML documents

A document is a list of lines: headers of tables, headers of arrays of tables, and entries, which
belong to the table of the last header. `ofText?` reads the lines and builds the table that they
describe.
-/

namespace SearchBox.Toml

/-- A line that is neither blank nor a comment. -/
inductive Line
  | header (path : List String)
  | nextHeader (path : List String)
  | entry (path : List String) (value : Document)
  deriving Inhabited

/-- The line at the front of a text, and the text after its end. -/
def readLine (supply : Nat) (cs : List Char) : Front Line :=
  match cs with
  | '[' :: '[' :: rest =>
    (readPath supply rest).bind fun (path, rest) =>
      match rest with
      | ']' :: ']' :: rest => (endLine? rest).map fun rest => (.nextHeader path, rest)
      | _ => none
  | '[' :: rest =>
    (readPath supply rest).bind fun (path, rest) =>
      match rest with
      | ']' :: rest => (endLine? rest).map fun rest => (.header path, rest)
      | _ => none
  | _ =>
    (readPath supply cs).bind fun (path, rest) =>
      match rest with
      | '=' :: rest =>
        (readValue supply (skipBlanks rest)).bind fun (d, rest) =>
          (endLine? rest).map fun rest => (.entry path d, rest)
      | _ => none

/-- The lines of a text. -/
def readLines : Nat → List Char → Option (List Line)
  | 0, _ => none
  | supply + 1, cs =>
    match skipLines false cs with
    | [] => some []
    | cs => (readLine supply cs).bind fun (l, rest) => (readLines supply rest).map (l :: ·)

/-- The table after some lines, of which the first stand below the header `path`. -/
def build? (es : Entries) (path : List String) : List Line → Option Entries
  | [] => some es
  | .header p :: ls => (openTable? p es).bind fun es => build? es p ls
  | .nextHeader p :: ls => (openNext? p es).bind fun es => build? es p ls
  | .entry p d :: ls => (within .implied (put? p d) path es).bind fun es => build? es path ls

/-- The text with one character at the end of every line. -/
def unifyLineEnds : List Char → List Char
  | '\r' :: '\n' :: rest => '\n' :: unifyLineEnds rest
  | c :: rest => c :: unifyLineEnds rest
  | [] => []

/-- The document in a text, if the text is one. -/
def ofText? (text : String) : Option Document :=
  let cs := unifyLineEnds text.toList
  (readLines (2 * cs.length + 2) cs).bind fun ls => (build? [] [] ls).map document

end SearchBox.Toml
