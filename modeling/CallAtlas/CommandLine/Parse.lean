import CallAtlas.Settings.Options
import CallAtlas.Text.Integer
import CallAtlas.Text.Quoted

/-!
# The command line

The arguments of the program: one entry path and a number of options. Long options may be shortened
as long as only one fits, values stand in the next argument or after `=`, short options without a
value may share a dash, and a value may follow its short option directly. After `--` nothing is an
option.

`parseArguments` gives the settings that the arguments spell, or says what is wrong with them.
-/

namespace CallAtlas.CommandLine

open Json (Value)

/-- What an option asks for. -/
inductive OptionKind where
  | text
  | integer
  | choice (allowed : List String)
  | constant (value : Value)
  | help

/-- An option: its names, and the setting that it gives. -/
structure OptionSpec where
  names : List String
  setting : String
  kind : OptionKind

/-- The options of the program, in the order in which messages list them. -/
def options : List OptionSpec := [
  ⟨["-h", "--help"], "help", .help⟩,
  ⟨["--root"], "root_dir", .text⟩,
  ⟨["--config"], "config", .text⟩,
  ⟨["-o", "--out-dir"], "out_dir", .text⟩,
  ⟨["-T", "--format"], "format", .choice outputFormats⟩,
  ⟨["--declaration"], "declaration", .constant (.bool true)⟩,
  ⟨["--line"], "line", .integer⟩,
  ⟨["--incoming"], "direction", .constant (.string "incoming")⟩,
  ⟨["--max-depth"], "max_depth", .integer⟩,
  ⟨["--serve"], "serve", .constant (.bool true)⟩,
  ⟨["--host"], "host", .text⟩,
  ⟨["--port"], "port", .integer⟩,
  ⟨["-j", "--jobs"], "jobs", .integer⟩,
  ⟨["-v", "--verbose"], "verbose", .constant (.bool true)⟩]

/-- What is wrong with one option. -/
inductive Problem where
  | ignoredValue (text : String)
  | expectedValue
  | invalidInteger (text : String)
  | invalidChoice (text : String) (allowed : List String)

/-- What is wrong with the arguments. -/
inductive UsageError where
  | ambiguous (argument : String) (names : List String)
  | unrecognized (arguments : List String)
  | option (names : List String) (problem : Problem)

/-- The text of a problem. -/
def Problem.message : Problem → String
  | .ignoredValue text => "ignored explicit argument " ++ Text.quoted text
  | .expectedValue => "expected one argument"
  | .invalidInteger text => "invalid int value: " ++ Text.quoted text
  | .invalidChoice text allowed =>
    "invalid choice: " ++ Text.quoted text ++ " (choose from " ++ ", ".intercalate
      (allowed.map Text.quoted) ++ ")"

/-- The text of the message. -/
def UsageError.message : UsageError → String
  | .ambiguous argument names =>
    "ambiguous option: " ++ argument ++ " could match " ++ ", ".intercalate names
  | .unrecognized arguments => "unrecognized arguments: " ++ " ".intercalate arguments
  | .option names problem => "argument " ++ "/".intercalate names ++ ": " ++ problem.message

/-- Why reading the arguments ends early. -/
inductive Stop where
  | help
  | usage (error : UsageError)

namespace OptionSpec

/-- Whether an option takes a value. -/
def takesValue (o : OptionSpec) : Bool :=
  match o.kind with
  | .text | .integer | .choice _ => true
  | .constant _ | .help => false

/-- A problem with this option. -/
def refuse {α : Type} (o : OptionSpec) (problem : Problem) : Except Stop α :=
  .error (.usage (.option o.names problem))

/-- The value that a text gives. The mark `--` is never a value and leaves none. -/
def value (o : OptionSpec) (text : String) : Except Stop Value :=
  if text = "--" then .ok (.array [])
  else
    match o.kind with
    | .integer =>
      match Text.Integer.readInt? text.toList with
      | some n => .ok (.int n)
      | none => o.refuse (.invalidInteger text)
    | .choice allowed =>
      if allowed.contains text then .ok (.string text) else o.refuse (.invalidChoice text allowed)
    | _ => .ok (.string text)

/-- The settings after an option, with the text of its value if it has one. -/
def apply (o : OptionSpec) (text : Option String) (settings : Settings) : Except Stop Settings :=
  match o.kind with
  | .help => .error .help
  | .constant v => .ok (Json.insertMember settings o.setting v)
  | _ => do return Json.insertMember settings o.setting (← o.value (text.getD "--"))

end OptionSpec

/-- Every name of every option, with the option. -/
def namedOptions : List (String × OptionSpec) := options.flatMap fun o => o.names.map (·, o)

/-- The option with a name. -/
def option? (name : String) : Option OptionSpec := (namedOptions.find? (·.1 == name)).map Prod.snd

/-- An argument: the mark `--`, a plain word, an option with the name it was found under and the
value that stands in the same argument, or something that looks like an option and is none. -/
inductive Word where
  | mark
  | plain (text : String)
  | option (spec : OptionSpec) (name : String) (value : Option (List Char))
  | unknown (text : String)

/-- The text of an argument before and after its first equals sign, if it has one. -/
def splitValue (cs : List Char) : List Char × Option (List Char) :=
  (cs.takeWhile (· ≠ '='), if cs.contains '=' then some ((cs.dropWhile (· ≠ '=')).drop 1) else none)

/-- Whether a text is a sequence of digits, at least as many as given. -/
def areDigits (atLeast : Nat) (cs : List Char) : Bool :=
  atLeast ≤ cs.length && cs.all fun c => (Text.Integer.digitValue? c).isSome

/-- Whether an argument looks like a negative number; one line feed at its end does not count. -/
def isNegativeNumber (cs : List Char) : Bool :=
  match (if cs.getLast? = some '\n' then cs.dropLast else cs) with
  | '-' :: rest =>
    areDigits 1 rest ||
      (rest.contains '.' && areDigits 0 (rest.takeWhile (· ≠ '.')) &&
        areDigits 1 ((rest.dropWhile (· ≠ '.')).drop 1))
  | _ => false

/-- What an argument that names no option exactly is: it may shorten a long option, or hold a short
option with its value. -/
def approximate (text : String) (cs : List Char) : Except UsageError Word :=
  if ['-', '-'].isPrefixOf cs then
    let (name, value) := splitValue cs
    match namedOptions.filter fun (n, _) => name.isPrefixOf n.toList with
    | [] => .ok (other ())
    | [(n, o)] => .ok (.option o n value)
    | found => .error (.ambiguous text (found.map Prod.fst))
  else
    let short := String.ofList (cs.take 2)
    match option? short with
    | some o => .ok (.option o short (some (cs.drop 2)))
    | none => .ok (other ())
where
  other (_ : Unit) : Word :=
    if isNegativeNumber cs || cs.contains ' ' then .plain text else .unknown text

/-- What an argument is. -/
def classify (text : String) : Except UsageError Word :=
  match text.toList with
  | '-' :: c :: rest =>
    match option? text with
    | some o => .ok (.option o text none)
    | none =>
      let (name, value) := splitValue ('-' :: c :: rest)
      match value, option? (String.ofList name) with
      | some v, some o => .ok (.option o (String.ofList name) (some v))
      | _, _ => approximate text ('-' :: c :: rest)
  | _ => .ok (.plain text)

/-- What the arguments are; after the mark all are plain. -/
def classifyAll : List String → Except UsageError (List Word)
  | [] => .ok []
  | text :: rest =>
    if text = "--" then .ok (.mark :: rest.map .plain)
    else do
      let word ← classify text
      return word :: (← classifyAll rest)

/-- Options that share an argument: those that need nothing more, and the last one with its value if
that stands there too. -/
structure Cluster where
  before : List OptionSpec
  last : OptionSpec
  value : Option String

/-- Takes an argument apart in which text follows the option `o`. -/
def cluster (o : OptionSpec) (short : Bool) (before : List OptionSpec) :
    List Char → Except Stop Cluster
  | [] => if o.takesValue then .ok ⟨before, o, some ""⟩ else o.refuse (.ignoredValue "")
  | c :: rest =>
    if o.takesValue then .ok ⟨before, o, some (String.ofList (c :: rest))⟩
    else if !short then o.refuse (.ignoredValue (String.ofList (c :: rest)))
    else
      match option? (String.ofList ['-', c]) with
      | none => o.refuse (.ignoredValue (String.ofList (c :: rest)))
      | some next =>
        if rest.isEmpty then .ok ⟨before ++ [o], next, none⟩
        else cluster next true (before ++ [o]) rest

/-- What has been read: the entry, the settings, and the arguments that nothing takes. -/
structure Reading where
  entryTaken : Bool := false
  settings : Settings := []
  extras : List String := []

namespace Reading

/-- Takes a plain word as the entry, or leaves it over. -/
def addPlain (r : Reading) (text : String) : Reading :=
  if r.entryTaken then { r with extras := r.extras ++ [text] }
  else
    { r with
      entryTaken := true
      settings := Json.insertMember r.settings "entry" (.string text) }

/-- Applies options that share an argument. -/
def addCluster (r : Reading) (c : Cluster) (value : Option String) : Except Stop Reading := do
  let settings ← c.before.foldlM (fun settings o => o.apply none settings) r.settings
  return { r with settings := ← c.last.apply value settings }

end Reading

/-- The options of an argument. -/
def clusterOf (spec : OptionSpec) (name : String) : Option (List Char) → Except Stop Cluster
  | none => .ok ⟨[], spec, none⟩
  | some text => cluster spec (name.toList.drop 1 |>.head? |>.all (· ≠ '-')) [] text

/-- Reads the arguments in order. An option that still needs a value takes the next argument if that
is plain, and a mark directly after the entry goes with it. -/
def readWords (r : Reading) : List Word → Except Stop Reading
  | [] => .ok r
  | .unknown text :: rest => readWords { r with extras := r.extras ++ [text] } rest
  | .mark :: rest =>
    if r.entryTaken then readWords { r with extras := r.extras ++ ["--"] } rest
    else readWords r rest
  | [.plain text] => .ok (r.addPlain text)
  | .plain text :: .mark :: rest =>
    if r.entryTaken then readWords (r.addPlain text) (.mark :: rest)
    else readWords (r.addPlain text) rest
  | .plain text :: word :: rest => readWords (r.addPlain text) (word :: rest)
  | .option spec name value :: .plain text :: rest =>
    match clusterOf spec name value with
    | .error stop => .error stop
    | .ok c =>
      if c.last.takesValue && c.value.isNone then
        match r.addCluster c (some text) with
        | .error stop => .error stop
        | .ok r => readWords r rest
      else
        match r.addCluster c c.value with
        | .error stop => .error stop
        | .ok r => readWords r (.plain text :: rest)
  | .option spec name value :: rest =>
    match clusterOf spec name value with
    | .error stop => .error stop
    | .ok c =>
      if c.last.takesValue && c.value.isNone then c.last.refuse .expectedValue
      else
        match r.addCluster c c.value with
        | .error stop => .error stop
        | .ok r => readWords r rest

/-- The settings that the arguments spell. -/
def parseArguments (arguments : List String) : Except Stop Settings := do
  let words ← (classifyAll arguments).mapError .usage
  let r ← readWords {} words
  if r.extras.isEmpty then return r.settings else throw (.usage (.unrecognized r.extras))

end CallAtlas.CommandLine
