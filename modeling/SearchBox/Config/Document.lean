import SearchBox.Number.Double

/-!
# Configuration documents

The tree of values that a configuration file holds: tables with their entries in order, arrays,
strings, integers, doubles and truth values. A `Record` is a document read as a structure with named
parts; an array gives the parts in their order.
-/

namespace SearchBox

/-- A value of a configuration file. -/
inductive Document
  | truth (b : Bool)
  | integer (n : Int)
  | double (x : Number.Double)
  | string (s : String)
  | array (items : List Document)
  | table (entries : List (String × Document))
  deriving Inhabited

namespace Document

/-- A structure with parts that are named, or listed in their order. -/
inductive Record
  | named (entries : List (String × Document))
  | listed (items : List Document)

/-- The document as a structure. -/
def record? : Document → Option Record
  | table entries => some (.named entries)
  | array items => some (.listed items)
  | _ => none

namespace Record

/-- The part with a place and a name. -/
def part? (r : Record) (place : Nat) (name : String) : Option Document :=
  match r with
  | named entries => entries.lookup name
  | listed items => items[place]?

/-- A part that must be there. -/
def required {α : Type} (r : Record) (place : Nat) (name : String) (read : Document → Option α) :
    Option α :=
  (r.part? place name).bind read

/-- A part with a default. -/
def withDefault {α : Type} (r : Record) (place : Nat) (name : String) (default : α)
    (read : Document → Option α) : Option α :=
  match r.part? place name with
  | none => some default
  | some d => read d

/-- A part that may be missing where the parts are named. -/
def optional {α : Type} (r : Record) (place : Nat) (name : String) (read : Document → Option α) :
    Option (Option α) :=
  match r, r.part? place name with
  | _, some d => (read d).map some
  | named _, none => some none
  | listed _, none => none

end Record

/-! ### Reading values -/

/-- A string. -/
def string? : Document → Option String
  | string s => some s
  | _ => none

/-- A truth value. -/
def truth? : Document → Option Bool
  | truth b => some b
  | _ => none

/-- An integer. -/
def integer? : Document → Option Int
  | integer n => some n
  | _ => none

/-- An integer that is not negative. -/
def natural? : Document → Option Nat
  | integer n => if 0 ≤ n then some n.toNat else none
  | _ => none

/-- An array of which every item can be read. -/
def list? {α : Type} (read : Document → Option α) : Document → Option (List α)
  | array items => items.mapM read
  | _ => none

/-- A table of which every value can be read. -/
def table? {α : Type} (read : Document → Option α) : Document → Option (List (String × α))
  | table entries => entries.mapM fun e => (read e.2).map (e.1, ·)
  | _ => none

/-- A word: a string, or the key of a table with one entry that is empty itself. -/
def word? : Document → Option String
  | string s => some s
  | table [(s, table [])] => some s
  | table [(s, array [])] => some s
  | _ => none

/-- One of several values, each of which has a word. -/
def oneOf? {α : Type} (values : List α) (word : α → String) (d : Document) : Option α :=
  d.word?.bind fun w => values.find? fun v => word v = w

end Document

end SearchBox
