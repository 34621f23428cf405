import SearchBox.Number.Double
import SearchBox.Text.Basic
import SearchBox.Toml.Tree

/-!
# Keys and values in TOML

Every reader takes a thing from the front of a text and gives the rest. Strings come in four forms,
with or without escapes and on one line or several; a number or a truth value is a bare word, and
arrays and inline tables nest. Dates and times are refused. Nested readers take one unit of a supply
that is fixed by the length of the text.
-/

namespace SearchBox.Toml

/-- What was read from the front of a text, and the rest of it. -/
abbrev Front (α : Type) := Option (α × List Char)

/-! ### Blanks and comments -/

/-- A space or a tab. -/
def isBlank (c : Char) : Bool := c = ' ' || c = '\t'

/-- The text without the blanks in front. -/
def skipBlanks (cs : List Char) : List Char := cs.dropWhile isBlank

/-- A character that a line may hold. -/
def isPlain (c : Char) : Bool := c = '\t' || (32 ≤ c.toNat && c.toNat ≠ 127)

/-- The text without the blanks, the ends of lines and the comments in front. The flag says that the
text starts inside a comment. -/
def skipLines : Bool → List Char → List Char
  | _, [] => []
  | _, '\n' :: rest => skipLines false rest
  | true, c :: rest => if isPlain c then skipLines true rest else c :: rest
  | false, c :: rest =>
    if c = '#' then skipLines true rest
    else if isBlank c then skipLines false rest
    else c :: rest

/-- The text after the end of a line, before which only blanks and a comment may stand. -/
def endLine? (cs : List Char) : Option (List Char) :=
  let rest :=
    match skipBlanks cs with
    | '#' :: rest => rest.dropWhile isPlain
    | rest => rest
  match rest with
  | [] => some []
  | '\n' :: rest => some rest
  | _ => none

/-! ### Strings -/

/-- Adds a character to what was read. -/
def consChar (c : Char) (f : Front (List Char)) : Front (List Char) :=
  f.map fun (cs, rest) => (c :: cs, rest)

/-- The character behind a backslash in an escape of two characters. -/
def escaped? (c : Char) : Option Char :=
  if c = 'b' then some '\x08'
  else if c = 't' then some '\t'
  else if c = 'n' then some '\n'
  else if c = 'f' then some '\x0c'
  else if c = 'r' then some '\r'
  else if c = '\x22' || c = '\\' then some c
  else none

/-- The value of a digit in a base up to sixteen. -/
def digit? (base : Nat) (c : Char) : Option Nat :=
  let d :=
    if c.isDigit then c.toNat - 48
    else if 'a' ≤ c && c ≤ 'f' then c.toNat - 87
    else if 'A' ≤ c && c ≤ 'F' then c.toNat - 55
    else 16
  if d < base then some d else none

/-- The number of a nonempty run of digits. -/
def digits? (base : Nat) (cs : List Char) : Option Nat :=
  if cs.isEmpty then none
  else cs.foldl (fun n c => n.bind fun n => (digit? base c).map (base * n + ·)) (some 0)

/-- The character with a code point in hexadecimal. -/
def codePoint? (cs : List Char) : Option Char :=
  (digits? 16 cs).bind fun n => if n.isValidChar then some (Char.ofNat n) else none

/-- A string with escapes, up to its closing mark. -/
def readBasic : List Char → Front (List Char)
  | '\x22' :: rest => some ([], rest)
  | '\\' :: 'u' :: a :: b :: c :: d :: rest =>
    (codePoint? [a, b, c, d]).bind fun x => consChar x (readBasic rest)
  | '\\' :: 'U' :: a :: b :: c :: d :: e :: f :: g :: h :: rest =>
    (codePoint? [a, b, c, d, e, f, g, h]).bind fun x => consChar x (readBasic rest)
  | '\\' :: c :: rest => (escaped? c).bind fun x => consChar x (readBasic rest)
  | c :: rest => if isPlain c then consChar c (readBasic rest) else none
  | [] => none

/-- A string without escapes, up to its closing mark. -/
def readLiteral : List Char → Front (List Char)
  | '\x27' :: rest => some ([], rest)
  | c :: rest => if isPlain c then consChar c (readLiteral rest) else none
  | [] => none

/-- How far the reading of a string on several lines has come. -/
inductive Fold
  | text
  /-- Behind a backslash, before the end of its line. -/
  | lineEnd
  /-- Between the end of a line that ended in a backslash and the text that follows. -/
  | gap
  deriving DecidableEq

/-- A string with escapes on several lines, up to three closing marks. A backslash at the end of a
line joins it to the next text. -/
def readLongBasic : Fold → List Char → Front (List Char)
  | .lineEnd, '\n' :: rest => readLongBasic .gap rest
  | .lineEnd, c :: rest => if isBlank c then readLongBasic .lineEnd rest else none
  | .gap, '\n' :: rest => readLongBasic .gap rest
  | .gap, ' ' :: rest => readLongBasic .gap rest
  | .gap, '\t' :: rest => readLongBasic .gap rest
  | _, '\x22' :: '\x22' :: '\x22' :: '\x22' :: rest =>
    consChar '\x22' (readLongBasic .text ('\x22' :: '\x22' :: '\x22' :: rest))
  | _, '\x22' :: '\x22' :: '\x22' :: rest => some ([], rest)
  | _, '\\' :: 'u' :: a :: b :: c :: d :: rest =>
    (codePoint? [a, b, c, d]).bind fun x => consChar x (readLongBasic .text rest)
  | _, '\\' :: 'U' :: a :: b :: c :: d :: e :: f :: g :: h :: rest =>
    (codePoint? [a, b, c, d, e, f, g, h]).bind fun x => consChar x (readLongBasic .text rest)
  | _, '\\' :: '\n' :: rest => readLongBasic .gap rest
  | _, '\\' :: c :: rest =>
    if isBlank c then readLongBasic .lineEnd rest
    else (escaped? c).bind fun x => consChar x (readLongBasic .text rest)
  | _, c :: rest =>
    if isPlain c || c = '\n' then consChar c (readLongBasic .text rest) else none
  | _, [] => none

/-- A string without escapes on several lines, up to three closing marks. -/
def readLongLiteral : List Char → Front (List Char)
  | '\x27' :: '\x27' :: '\x27' :: '\x27' :: rest =>
    consChar '\x27' (readLongLiteral ('\x27' :: '\x27' :: '\x27' :: rest))
  | '\x27' :: '\x27' :: '\x27' :: rest => some ([], rest)
  | c :: rest => if isPlain c || c = '\n' then consChar c (readLongLiteral rest) else none
  | [] => none

/-- The text without one end of a line in front. -/
def skipNewline : List Char → List Char
  | '\n' :: rest => rest
  | cs => cs

/-- What was read, as a string. -/
def asString (f : Front (List Char)) : Front String :=
  f.map fun (cs, rest) => (String.ofList cs, rest)

/-- A string in one of its forms. -/
def readString : List Char → Front String
  | '\x22' :: '\x22' :: '\x22' :: rest => asString (readLongBasic .text (skipNewline rest))
  | '\x22' :: rest => asString (readBasic rest)
  | '\x27' :: '\x27' :: '\x27' :: rest => asString (readLongLiteral (skipNewline rest))
  | '\x27' :: rest => asString (readLiteral rest)
  | _ => none

/-! ### Keys -/

/-- A character of a key without quotation marks. -/
def isKeyChar (c : Char) : Bool := c.isAlphanum || c = '_' || c = '-'

/-- One part of a key. -/
def readKey (cs : List Char) : Front String :=
  match cs with
  | '\x22' :: rest => asString (readBasic rest)
  | '\x27' :: rest => asString (readLiteral rest)
  | _ =>
    let key := cs.takeWhile isKeyChar
    if key.isEmpty then none else some (String.ofList key, cs.dropWhile isKeyChar)

/-- A key of one or more parts with points between them. -/
def readPath : Nat → List Char → Front (List String)
  | 0, _ => none
  | supply + 1, cs =>
    (readKey (skipBlanks cs)).bind fun (key, rest) =>
      match skipBlanks rest with
      | '.' :: rest => (readPath supply rest).map fun (path, rest) => (key :: path, rest)
      | rest => some ([key], rest)

/-! ### Words -/

/-- A character of a bare word. -/
def isWordChar (c : Char) : Bool := c.isAlphanum || c = '_' || c = '+' || c = '-' || c = '.'

/-- The digits without the lines between groups of them. -/
def ungrouped? (cs : List Char) : Option (List Char) :=
  let groups := Text.pieces '_' cs
  if groups.all (!·.isEmpty) then some groups.flatten else none

/-- The digits of a decimal number without needless zeros in front. -/
def wholeDigits? (cs : List Char) : Option (List Char) :=
  (ungrouped? cs).bind fun ds =>
    match ds with
    | '0' :: _ :: _ => none
    | _ => if ds.all Char.isDigit then some ds else none

/-- A sign in front of a word, and the rest. -/
def splitSign : List Char → Bool × List Char
  | '-' :: rest => (true, rest)
  | '+' :: rest => (false, rest)
  | cs => (false, cs)

/-- An integer, in decimal or behind a mark for its base. -/
def integer? (cs : List Char) : Option Int :=
  match cs with
  | '0' :: 'x' :: ds => (ungrouped? ds).bind fun ds => (digits? 16 ds).map Int.ofNat
  | '0' :: 'o' :: ds => (ungrouped? ds).bind fun ds => (digits? 8 ds).map Int.ofNat
  | '0' :: 'b' :: ds => (ungrouped? ds).bind fun ds => (digits? 2 ds).map Int.ofNat
  | _ =>
    let (negative, ds) := splitSign cs
    (wholeDigits? ds).bind fun ds =>
      (digits? 10 ds).map fun n => if negative then -(n : Int) else n

/-- The digits of an exponent, with their sign. -/
def exponentDigits? (cs : List Char) : Option (List Char) :=
  let (negative, ds) := splitSign cs
  (ungrouped? ds).bind fun ds =>
    if ds.all Char.isDigit then some (if negative then '-' :: ds else ds) else none

/-- The text after the first of two characters, and the text before it. -/
def cutAny (a b : Char) (cs : List Char) : List Char × Option (List Char) :=
  let front := cs.takeWhile fun c => c ≠ a && c ≠ b
  match cs.drop front.length with
  | [] => (front, none)
  | _ :: rest => (front, some rest)

/-- A double: digits with a point, an exponent or both, or a word for a value that is not finite. -/
def double? (cs : List Char) : Option Number.Double :=
  let (negative, body) := splitSign cs
  let sign (x : Number.Double) : Number.Double := if negative then x.negate else x
  if body = "inf".toList then some (sign .infinity)
  else if body = "nan".toList then some (sign .nan)
  else
    let (mantissa, exponent) := cutAny 'e' 'E' body
    let (whole, fraction) := cutAny '.' '.' mantissa
    if fraction.isNone && exponent.isNone then none
    else do
      let whole ← wholeDigits? whole
      let fraction ← (fraction.mapM ungrouped?)
      let exponent ← (exponent.mapM exponentDigits?)
      let tail :=
        match exponent with
        | none => []
        | some ds => 'e' :: ds
      (Number.Double.read? (whole ++ '.' :: fraction.getD [] ++ tail)).map sign

/-- The value of a bare word. -/
def word? (cs : List Char) : Option Document :=
  if cs = "true".toList then some (.truth true)
  else if cs = "false".toList then some (.truth false)
  else
    match integer? cs with
    | some n => some (.integer n)
    | none => (double? cs).map .double

/-! ### Values -/

mutual

/-- A value. -/
def readValue : Nat → List Char → Front Document
  | 0, _ => none
  | supply + 1, cs =>
    match cs with
    | '[' :: rest => (readItems supply rest).map fun (ds, rest) => (.array ds, rest)
    | '\x7b' :: rest =>
      match skipBlanks rest with
      | '\x7d' :: rest => some (.table [], rest)
      | rest => (readEntries supply [] rest).map fun (es, rest) => (document es, rest)
    | '\x22' :: _ => (readString cs).map fun (s, rest) => (.string s, rest)
    | '\x27' :: _ => (readString cs).map fun (s, rest) => (.string s, rest)
    | _ => (word? (cs.takeWhile isWordChar)).map fun d => (d, cs.dropWhile isWordChar)

/-- The items of an array up to its closing bracket; a comma may follow the last. -/
def readItems : Nat → List Char → Front (List Document)
  | 0, _ => none
  | supply + 1, cs =>
    match skipLines false cs with
    | ']' :: rest => some ([], rest)
    | cs =>
      (readValue supply cs).bind fun (d, rest) =>
        match skipLines false rest with
        | ',' :: rest => (readItems supply rest).map fun (ds, rest) => (d :: ds, rest)
        | ']' :: rest => some ([d], rest)
        | _ => none

/-- The entries of an inline table behind those in `es`, up to its closing brace. -/
def readEntries : Nat → Entries → List Char → Front Entries
  | 0, _, _ => none
  | supply + 1, es, cs =>
    (readPath supply cs).bind fun (path, rest) =>
      match rest with
      | '=' :: rest =>
        (readValue supply (skipBlanks rest)).bind fun (d, rest) =>
          (put? path d es).bind fun es =>
            match skipBlanks rest with
            | ',' :: rest => readEntries supply es rest
            | '\x7d' :: rest => some (es, rest)
            | _ => none
      | _ => none

end

end SearchBox.Toml
