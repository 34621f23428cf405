import SearchBox.Number.Double

/-!
# JSON

Values whose objects keep their members in order, and their two written forms: `Json.text` without
any space, and `Json.pretty` with one member a line and two spaces for every level. A NaN and the
infinities are written as `null`.
-/

namespace SearchBox

/-- A JSON value; numbers are 64-bit integers or doubles. -/
inductive Json
  | null
  | bool (b : Bool)
  | integer (n : Int)
  | double (x : Number.Double)
  | string (s : String)
  | array (items : List Json)
  | object (members : List (String × Json))
  deriving Inhabited

namespace Json

/-! ### Leaves -/

/-- The four hexadecimal digits of a code point below `0x10000`. -/
def hexDigits (n : Nat) : List Char :=
  [n / 4096 % 16, n / 256 % 16, n / 16 % 16, n % 16].map Nat.digitChar

/-- A character inside a string: only the quote, the backslash and the control characters below the
space are escaped. -/
def escapedChar (c : Char) : List Char :=
  if c = '\x22' then ['\\', '\x22']
  else if c = '\\' then ['\\', '\\']
  else if c = '\x08' then ['\\', 'b']
  else if c = '\x09' then ['\\', 't']
  else if c = '\x0a' then ['\\', 'n']
  else if c = '\x0c' then ['\\', 'f']
  else if c = '\x0d' then ['\\', 'r']
  else if c.toNat < 0x20 then '\\' :: 'u' :: hexDigits c.toNat
  else [c]

/-- A string in quotes. -/
def quoted (s : String) : String :=
  "\x22" ++ String.ofList (s.toList.flatMap escapedChar) ++ "\x22"

/-- An integer in decimal. -/
def integerText (n : Int) : String := Number.decimalText n

/-- A double, or `null` if it is not finite. -/
def doubleText (x : Number.Double) : String :=
  if x.isFinite then String.ofList (x.layout .exchanged)
  else "null"

/-- A truth value. -/
def boolText (b : Bool) : String := if b then "true" else "false"

/-- Items between brackets, with commas. -/
def bracketed (items : List String) : String := "[" ++ ",".intercalate items ++ "]"

/-- Members between braces, with commas. -/
def braced (members : List String) : String := "\x7b" ++ ",".intercalate members ++ "\x7d"

/-- A member of an object. -/
def member (key value : String) : String := quoted key ++ ":" ++ value

/-! ### Without spaces -/

mutual

/-- The value without any space. -/
def text : Json → String
  | null => "null"
  | bool b => boolText b
  | integer n => integerText n
  | double x => doubleText x
  | string s => quoted s
  | array items => bracketed (itemTexts items)
  | object members => braced (memberTexts members)

/-- The items of an array. -/
def itemTexts : List Json → List String
  | [] => []
  | v :: vs => text v :: itemTexts vs

/-- The members of an object. -/
def memberTexts : List (String × Json) → List String
  | [] => []
  | (k, v) :: ms => member k (text v) :: memberTexts ms

end

/-! ### With indentation -/

/-- The start of a line at a level. -/
def margin (level : Nat) : String := String.ofList (List.replicate (2 * level) ' ')

/-- Lines one level deeper between an opening and a closing bracket; no line, no break. -/
def framed (opening closing : String) (level : Nat) (lines : List String) : String :=
  if lines.isEmpty then opening ++ closing
  else
    opening ++ "\n" ++ ",\n".intercalate (lines.map (margin (level + 1) ++ ·)) ++ "\n" ++
      margin level ++ closing

mutual

/-- The value with one item or member a line. -/
def prettyAt (level : Nat) : Json → String
  | null => "null"
  | bool b => boolText b
  | integer n => integerText n
  | double x => doubleText x
  | string s => quoted s
  | array items => framed "[" "]" level (prettyItems (level + 1) items)
  | object members => framed "\x7b" "\x7d" level (prettyMembers (level + 1) members)

/-- The items of an array at a level. -/
def prettyItems (level : Nat) : List Json → List String
  | [] => []
  | v :: vs => prettyAt level v :: prettyItems level vs

/-- The members of an object at a level. -/
def prettyMembers (level : Nat) : List (String × Json) → List String
  | [] => []
  | (k, v) :: ms => (quoted k ++ ": " ++ prettyAt level v) :: prettyMembers level ms

end

/-- The value with one item or member a line. -/
def pretty (v : Json) : String := prettyAt 0 v

end Json

end SearchBox
