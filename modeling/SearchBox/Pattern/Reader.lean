import SearchBox.Pattern.Basic

/-!
# Reading label patterns

The written form of a pattern: characters, `.`, the classes `\d` and `\s`, other characters behind a
backslash for themselves, classes in square brackets, groups in parentheses, `|` between branches,
and `*`, `+` and `?` behind what they repeat. Other means of expression, such as anchors and counted
repetitions, are not read. Every step of the reader takes one unit of a supply that is fixed by the
length of the text.
-/

namespace SearchBox.Pattern

/-- The class of a character behind a backslash. -/
def escapeClass? (c : Char) : Option CharClass :=
  if c = 'd' then some .digit
  else if c = 's' then some .blank
  else if c.isAlphanum then none
  else some (.ranges false [(c.toNat, c.toNat)])

/-- The ranges of a class up to the closing bracket, and what follows it. -/
def readRanges : List Char → Option (List (Nat × Nat) × List Char)
  | [] => none
  | ']' :: rest => some ([], rest)
  | '[' :: _ => none
  | '\\' :: _ => none
  | '-' :: _ => none
  | a :: '-' :: b :: rest =>
    if b = ']' || b = '[' || b = '\\' || b < a then none
    else (readRanges rest).map fun (rs, rest) => ((a.toNat, b.toNat) :: rs, rest)
  | a :: rest => (readRanges rest).map fun (rs, rest) => ((a.toNat, a.toNat) :: rs, rest)

/-- A class behind its opening bracket; it has at least one range. -/
def readClass? (cs : List Char) : Option (CharClass × List Char) :=
  let (negated, cs) :=
    match cs with
    | '^' :: rest => (true, rest)
    | _ => (false, cs)
  (readRanges cs).bind fun (rs, rest) =>
    if rs.isEmpty then none else some (.ranges negated rs, rest)

/-- The repetition marks behind a pattern. -/
def readMarks (p : Pattern) : List Char → Pattern × List Char
  | '*' :: rest => (many p, rest)
  | '+' :: rest => (manyOne p, rest)
  | '?' :: rest => (optional p, rest)
  | rest => (p, rest)

mutual

/-- Branches with bars between them, up to a closing parenthesis or the end. -/
def readChoice : Nat → List Char → Option (Pattern × List Char)
  | 0, _ => none
  | supply + 1, cs =>
    (readSequence supply cs).bind fun (p, rest) =>
      match rest with
      | '|' :: rest => (readChoice supply rest).map fun (q, rest) => (choice p q, rest)
      | _ => some (p, rest)

/-- Items one after the other. -/
def readSequence : Nat → List Char → Option (Pattern × List Char)
  | 0, _ => none
  | supply + 1, cs =>
    match cs with
    | [] | '|' :: _ | ')' :: _ => some (empty, cs)
    | _ =>
      (readItem supply cs).bind fun (p, rest) =>
        let (p, rest) := readMarks p rest
        (readSequence supply rest).map fun (q, rest) => (sequence p q, rest)

/-- A character, a class or a group. -/
def readItem : Nat → List Char → Option (Pattern × List Char)
  | 0, _ => none
  | supply + 1, cs =>
    match cs with
    | [] => none
    | '(' :: '?' :: _ => none
    | '(' :: rest =>
      (readChoice supply rest).bind fun (p, rest) =>
        match rest with
        | ')' :: rest => some (p, rest)
        | _ => none
    | '\\' :: c :: rest => (escapeClass? c).map fun k => (one k, rest)
    | '[' :: rest => (readClass? rest).map fun (k, rest) => (one k, rest)
    | '.' :: rest => some (one .any, rest)
    | c :: rest =>
      if "\\|)*+?^$\x7b".contains c then none
      else some (one (.ranges false [(c.toNat, c.toNat)]), rest)

end

/-- The pattern of a text, if it is written with the means above. -/
def ofText? (cs : List Char) : Option Pattern :=
  match readChoice (4 * cs.length + 4) cs with
  | some (p, []) => some p
  | _ => none

/-- The engine that knows the patterns above and no others. -/
def engine : SearchEngine := fun text => (ofText? text.toList).map search

end SearchBox.Pattern
