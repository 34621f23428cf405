import SearchBox.Query.Basic
import SearchBox.Reader

/-!
# Values, intervals and lists

One token is compiled for one key: a single value must be met exactly, an interval becomes bounds,
and a comma list becomes alternatives. An end of an interval may be missing. The ends may have a
reader of their own, and the dash may be switched off as a separator.
-/

namespace SearchBox

namespace Range

open Text

/-- How tokens are read. -/
structure Style where
  /-- Reads a single value. -/
  value : Reader
  /-- Reads the end of an interval. -/
  bound : Reader
  /-- A dash separates the ends of an interval. -/
  dashes : Bool := true

/-- Values and ends are read alike, and dashes separate. -/
def Style.plain (read : Reader) : Style := { value := read, bound := read }

/-- The end of an interval, if it is there. -/
def boundOf (read : Reader) (cs : List Char) : Except Error (Option Scalar) :=
  if cs.isEmpty then .ok none else (read cs).map some

/-- The constraint of an interval; its lower end is read first. -/
def intervalOf (read : Reader) (s : Token.Split) : Except Error Constraint :=
  (boundOf read s.low).bind fun low => (boundOf read s.high).map fun high => .range low high

/-- The constraint of a piece without comma. -/
def ofPiece (style : Style) (piece : List Char) : Except Error Constraint :=
  match Token.split? style.dashes piece with
  | some s => intervalOf style.bound s
  | none => (style.value piece).map .value

/-- The constraint of a piece that may be a plain rational, which is never an interval. -/
def ofRationalPiece (read : Reader) (piece : List Char) : Except Error Constraint :=
  if Token.isPlainRational piece then (read piece).map .value else ofPiece (.plain read) piece

/-- A single piece is a field, and several are alternatives with one field each; the first piece
that cannot be read decides the error. -/
def ofPieces (compile : List Char → Except Error Constraint) (key : String) :
    List (List Char) → Except Error Fragment
  | [piece] => (compile piece).map (.field key)
  | ps => (ps.mapM compile).map fun cs => .anyOf (cs.map (.single key))

/-- Compiles a token for a key. -/
def compile (style : Style) (key : String) (token : List Char) : Except Error Fragment :=
  ofPieces (ofPiece style) key (pieces ',' (erase ' ' token))

/-- Compiles a token of rationals for a key. -/
def compileRational (read : Reader) (key : String) (token : List Char) : Except Error Fragment :=
  ofPieces (ofRationalPiece read) key (pieces ',' (erase ' ' token))

/-- What is compiled: a token, or a scalar that has been read already. -/
inductive Argument
  | token (cs : List Char)
  | scalar (v : Scalar)

/-- Compiles a token, or takes a scalar as the value. -/
def compileArgument (style : Style) (key : String) : Argument → Except Error Fragment
  | .token cs => compile style key cs
  | .scalar v => .ok (.field key (.value v))

end Range

end SearchBox
