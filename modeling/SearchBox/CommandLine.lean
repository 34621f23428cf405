import SearchBox.Query.Json
import SearchBox.Registry

/-!
# The command line

`sq compile` compiles form input into a query and prints it as JSON with the paging, and `sq fields`
lists the fields of a form. `Request.ofArguments` reads the arguments, and `Request.run` gives the
output and the exit status. Configuration files are read through a function, and the pattern of the
labels is compiled by an engine.
-/

namespace SearchBox.CommandLine

/-- What is asked for. -/
inductive Request
  /-- Print the query of some input. -/
  | compile (config : String) (compact : Bool) (inputs : List String)
  /-- List the fields. -/
  | fields (config : String)
  | help (topic : Option String)
  | version
  /-- The arguments make no sense. -/
  | usage
  deriving DecidableEq, Inhabited

/-! ### Reading the arguments -/

/-- What follows the two dashes of a long option: its name, and the value behind an equals sign. -/
def long? (arg : List Char) : Option (String × Option String) :=
  match arg with
  | '-' :: '-' :: rest =>
    match Text.cut '=' rest with
    | some (name, value) => some (String.ofList name, some (String.ofList value))
    | none => some (String.ofList rest, none)
  | _ => none

/-- The letters behind one dash. A dash alone is no option. -/
def short? (arg : List Char) : Option (List Char) :=
  match arg with
  | '-' :: c :: rest => some (c :: rest)
  | _ => none

/-- What has been read of a command. -/
structure State where
  takesInputs : Bool
  verbose : Bool := false
  compact : Bool := false
  config : Option String := none
  inputs : List String := []

/-- The state, or the request that ends the reading at once. -/
abbrev Step := Except Request State

/-- Sets a flag that may come once. -/
def setOnce (isSet : Bool) (s : State) : Step := if isSet then .error .usage else .ok s

/-- Sets the configuration file, which has a name and comes once. -/
def State.setConfig (s : State) (path : String) : Step :=
  if path.isEmpty then .error .usage
  else setOnce s.config.isSome { s with config := some path }

/-- The name of the command that is being read. -/
def State.topic (s : State) : String := if s.takesInputs then "compile" else "fields"

/-- A long option without a value. -/
def State.setLong (s : State) (name : String) : Step :=
  if name = "verbose" then setOnce s.verbose { s with verbose := true }
  else if name = "compact" && s.takesInputs then setOnce s.compact { s with compact := true }
  else if name = "help" then .error (.help (some s.topic))
  else .error .usage

/-- The letters behind a dash. The second part of the result says that a value for the configuration
file must follow as the next argument. -/
def State.setShort (s : State) : List Char → Except Request (State × Bool)
  | [] => .ok (s, false)
  | 'v' :: rest =>
    if s.verbose then .error .usage else State.setShort { s with verbose := true } rest
  | 'h' :: _ => .error (.help (some s.topic))
  | 'c' :: [] => .ok (s, true)
  | 'c' :: '=' :: value => (s.setConfig (String.ofList value)).map (·, false)
  | 'c' :: value => (s.setConfig (String.ofList value)).map (·, false)
  | _ => .error .usage

/-- Adds inputs, where the command takes some. -/
def State.addInputs (s : State) (inputs : List String) : Step :=
  if inputs.isEmpty then .ok s
  else if s.takesInputs then .ok { s with inputs := s.inputs ++ inputs }
  else .error .usage

/-- An argument that can be the value of an option. -/
def isValue (arg : String) : Bool :=
  match arg.toList with
  | '-' :: _ :: _ => false
  | _ => true

/-- Reads the arguments of a command. After two dashes alone all of them are inputs. -/
def State.read (s : State) : List String → Step
  | [] => .ok s
  | arg :: rest =>
    if arg = "--" then s.addInputs rest
    else
      match long? arg.toList with
      | some ("config", some value) => (s.setConfig value).bind fun s => s.read rest
      | some ("config", none) =>
        match rest with
        | [] => .error .usage
        | value :: rest =>
          if isValue value then (s.setConfig value).bind fun s => s.read rest else .error .usage
      | some (_, some _) => .error .usage
      | some (name, none) => (s.setLong name).bind fun s => s.read rest
      | none =>
        match short? arg.toList with
        | none => (s.addInputs [arg]).bind fun s => s.read rest
        | some letters =>
          match s.setShort letters with
          | .error r => .error r
          | .ok (s, false) => s.read rest
          | .ok (s, true) =>
            match rest with
            | [] => .error .usage
            | value :: rest =>
              if isValue value then (s.setConfig value).bind fun s => s.read rest
              else .error .usage
termination_by args => args.length

/-- The request of a command; the configuration file must be given. -/
def State.request : Step → Request
  | .error r => r
  | .ok s =>
    match s.config with
    | none => .usage
    | some config => if s.takesInputs then .compile config s.compact s.inputs else .fields config

/-- The letters behind a dash in front of a command. -/
def readLetters (verbose : Bool) : List Char → Except Request Bool
  | [] => .ok verbose
  | 'v' :: rest => if verbose then .error .usage else readLetters true rest
  | 'h' :: _ => .error (.help none)
  | 'V' :: _ => .error .version
  | _ => .error .usage

/-- The request for help on a topic. -/
def helpOn : List String → Request
  | [] => .help none
  | [topic] =>
    if ["compile", "fields", "help"].contains topic then .help (some topic) else .usage
  | _ => .usage

/-- Reads the options in front of a command, and then the command. -/
def Request.afterOptions (verbose : Bool) : List String → Request
  | [] => .usage
  | arg :: rest =>
    if arg = "compile" then State.request (State.read { takesInputs := true } rest)
    else if arg = "fields" then State.request (State.read { takesInputs := false } rest)
    else if arg = "help" then helpOn rest
    else if arg = "--verbose" then if verbose then .usage else afterOptions true rest
    else if arg = "--help" then .help none
    else if arg = "--version" then .version
    else if (long? arg.toList).isSome then .usage
    else
      match short? arg.toList with
      | none => .usage
      | some letters =>
        match readLetters verbose letters with
        | .error r => r
        | .ok verbose => afterOptions verbose rest

/-- The request of the arguments. -/
def Request.ofArguments (args : List String) : Request := Request.afterOptions false args

/-- The configuration file that a request needs. -/
def Request.config? : Request → Option String
  | .compile config _ _ => some config
  | .fields config => some config
  | _ => none

/-! ### Output -/

/-- What a run leaves behind. -/
structure Output where
  status : Nat := 0
  out : String := ""
  err : String := ""

/-- Every line of a text is indented. -/
def indented (text : String) : String :=
  "\n".intercalate (((Text.pieces '\n' text.toList).map String.ofList).map ("    " ++ ·))

/-- A failure with its message, and the message of its cause if there is one. -/
def failure (message : String) (cause : Option String) : Output :=
  let tail :=
    match cause with
    | none => ""
    | some c => "\n\nCaused by:\n" ++ indented c
  { status := 1, err := "Error: " ++ message ++ tail ++ "\n" }

/-- Why a configuration file is not read. -/
inductive FileError
  /-- The file cannot be read. -/
  | unreadable (cause : String)
  /-- The file is no document. -/
  | malformed (cause : String)

/-- Reads the document in a file. -/
abbrev Files := String → Except FileError Document

/-- The wording for a document that describes no form. -/
def structureMessage : String := "the document does not describe a search form"

/-- The configuration in a file, or the output that reports why there is none. -/
def loadConfig (files : Files) (path : String) : Except Output Config :=
  match files path with
  | .error (.unreadable cause) =>
    .error (failure ("Failed to read config file: " ++ path) (some cause))
  | .error (.malformed cause) =>
    .error (failure ("Failed to parse config file: " ++ path) (some cause))
  | .ok d =>
    match Config.ofDocument? d with
    | none => .error (failure ("Failed to parse config file: " ++ path) (some structureMessage))
    | some c =>
      match c.check with
      | .error fault => .error (failure ("Invalid config file: " ++ path) (some fault.message))
      | .ok () => .ok c

/-- The places of the groups that are open at the end of a pattern, the innermost first. -/
def openGroups (place : Nat) (groups : List Nat) : List Char → List Nat
  | [] => groups
  | '\\' :: _ :: rest => openGroups (place + 2) groups rest
  | '(' :: rest => openGroups (place + 1) (place :: groups) rest
  | ')' :: rest => openGroups (place + 1) groups.tail rest
  | _ :: rest => openGroups (place + 1) groups rest

/-- The wording for a pattern that cannot be read, with a mark below a group that stays open. -/
def patternCause (pattern : String) : String :=
  match openGroups 0 [] pattern.toList with
  | [] => "regex parse error"
  | place :: _ =>
    "regex parse error:\n    " ++ pattern ++ "\n    " ++
      String.ofList (List.replicate place ' ') ++ "^\nerror: unclosed group"

/-- The innermost cause of a failure to build a registry. -/
def causeOf : Registry.Fault → Option String
  | .badPattern pattern => some (patternCause pattern)
  | .badField _ cause => some cause.message
  | .unknownPaired _ => none

/-- The configuration in a file with its registry. -/
def load (engine : SearchEngine) (files : Files) (path : String) : Except Output (Config × Registry) :=
  (loadConfig files path).bind fun c =>
    match Registry.ofConfig engine c with
    | .error fault => .error (failure fault.message (causeOf fault))
    | .ok r => .ok (c, r)

/-- The field and the text of an input. -/
def readInput (input : String) : Except Output (String × String) :=
  match Text.cut '=' input.toList with
  | some (field, text) => .ok (String.ofList field, String.ofList text)
  | none => .error (failure ("Expected FIELD=VALUE, got '" ++ input ++ "'") none)

/-- The query of a form with its paging. -/
def queryJson (q : Query) (count start : Int) : Json :=
  .object [("query", q.json), ("count", .integer count), ("start", .integer start)]

/-- The output for a form. Errors of the user are shown with the messages flashed into the form. -/
def report (c : Config) (r : Registry) (compact : Bool) (form : Form) : Output :=
  match r.compile form with
  | (form, .error e) =>
    if form.marked then
      let o := failure ("Search abandoned: " ++ e.message) none
      { o with err := String.join (form.flashes.map (· ++ "\n")) ++ o.err }
    else failure ("Search form is misconfigured: " ++ e.message) none
  | (form, .ok q) =>
    let (count, form) := Paging.count form c.paging.count
    let v := queryJson q count (Paging.start form c.paging.start)
    { out := (if compact then v.text else v.pretty) ++ "\n" }

/-- Compiles the inputs. -/
def runCompile (engine : SearchEngine) (files : Files) (path : String) (compact : Bool)
    (inputs : List String) : Except Output Output :=
  (load engine files path).bind fun (c, r) =>
    (inputs.mapM readInput).map fun values => report c r compact (Form.ofList values)

/-! ### The list of fields -/

/-- A cell filled up with spaces. -/
def padded (width : Nat) (cell : String) : String :=
  cell ++ String.ofList (List.replicate (width - cell.length) ' ')

/-- The greatest length of the cells in a column. -/
def columnWidth (rows : List (List String)) (column : Nat) : Nat :=
  rows.foldl (fun w row => max w ((row[column]?).getD "").length) 0

/-- A row with every cell but the last filled up to the width of its column. -/
def rowText (widths : List Nat) : List String → String
  | [] => ""
  | [cell] => cell
  | cell :: cells => padded (widths.headD 0) cell ++ "  " ++ rowText (widths.drop 1) cells

/-- Rows with columns of equal width, one row a line. -/
def table (rows : List (List String)) : String :=
  let columns := rows.foldl (fun n row => max n row.length) 0
  let widths := (List.range columns).map (columnWidth rows)
  String.join (rows.map fun row => rowText widths row ++ "\n")

/-- The head of the list of fields. -/
def fieldsHead : List String := ["Field", "Kind", "Query key", "Name", "Paired"]

/-- The row of an entry. -/
def fieldRow (r : Registry) (e : Entry) : List String :=
  [e.name, e.kind.word, e.key, e.title, if r.isPaired e.name then "yes" else ""]

/-- The list of the fields, and the paging. -/
def fieldsText (c : Config) (r : Registry) : String :=
  table (fieldsHead :: r.entries.map (fieldRow r)) ++
    "Page size " ++ Number.decimalText c.paging.count ++
    " starting at " ++ Number.decimalText c.paging.start ++ "\n"

/-! ### Help -/

/-- The name of the program with its version. -/
def versionText : String := "sq 0.1.0\n"

/-- How the program is used. -/
def helpText : Option String → String
  | some "compile" =>
    "Compile field=value inputs and print the query as JSON\n\n" ++
    "Usage: sq compile [OPTIONS] --config <CONFIG> [FIELD=VALUE]...\n\n" ++
    "Arguments:\n" ++
    "  [FIELD=VALUE]...  Form input, e.g. degree=2..4 count=20\n\n" ++
    "Options:\n" ++
    "  -c, --config <CONFIG>  Search form description (TOML)\n" ++
    "      --compact          Print the query on a single line\n" ++
    "  -v, --verbose          Enable debug logging\n" ++
    "  -h, --help             Print help\n"
  | some "fields" =>
    "List the fields of a search form\n\n" ++
    "Usage: sq fields [OPTIONS] --config <CONFIG>\n\n" ++
    "Options:\n" ++
    "  -c, --config <CONFIG>  Search form description (TOML)\n" ++
    "  -v, --verbose          Enable debug logging\n" ++
    "  -h, --help             Print help\n"
  | some _ =>
    "Print this message or the help of the given subcommand(s)\n\n" ++
    "Usage: sq help [COMMAND]...\n\n" ++
    "Arguments:\n" ++
    "  [COMMAND]...  Print help for the subcommand(s)\n"
  | none =>
    "Compile search form input into a database query\n\n" ++
    "Usage: sq [OPTIONS] <COMMAND>\n\n" ++
    "Commands:\n" ++
    "  compile  Compile field=value inputs and print the query as JSON\n" ++
    "  fields   List the fields of a search form\n" ++
    "  help     Print this message or the help of the given subcommand(s)\n\n" ++
    "Options:\n" ++
    "  -v, --verbose  Enable debug logging\n" ++
    "  -h, --help     Print help\n" ++
    "  -V, --version  Print version\n"

/-- The output of one kind or the other. -/
def merged : Except Output Output → Output
  | .ok o => o
  | .error o => o

/-- Does what is asked for. -/
def Request.run (engine : SearchEngine) (files : Files) : Request → Output
  | .usage => { status := 2, err := helpText none }
  | .version => { out := versionText }
  | .help topic => { out := helpText topic }
  | .fields path => merged ((load engine files path).map fun (c, r) => { out := fieldsText c r })
  | .compile path compact inputs => merged (runCompile engine files path compact inputs)

/-- The output for the arguments. -/
def run (engine : SearchEngine) (files : Files) (args : List String) : Output :=
  (Request.ofArguments args).run engine files

end SearchBox.CommandLine
