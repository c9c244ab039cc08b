import CallAtlas.FileSystem.Discovery
import CallAtlas.Graph.Basic
import CallAtlas.Settings.File

/-!
# Options

Options are settings that were checked: every setting is known, the entry exists and lies inside the
root, and every value has its type and range. The checks come in a fixed order, and the first that
fails is reported.
-/

namespace CallAtlas

open Json (Value)

/-- What a run is asked to do. `entry` lists the files whose call sites start the hierarchies. -/
structure Options where
  entry : List Path
  root : Path
  output : Path
  format : String := "svg"
  declaration : Bool := false
  verbose : Bool := false
  line : Option Nat := none
  direction : Direction := .outgoing
  maxDepth : Option Nat := none
  serve : Bool := false
  host : String := "127.0.0.1"
  portNumber : Nat := 7878
  jobs : Option Nat := none

namespace Options

/-- How the trees of a run are drawn, given the directories of the standard library. -/
def graphConfig (o : Options) (standard : List Path) : GraphConfig where
  root := some o.root
  declaration := o.declaration
  direction := o.direction
  standard

end Options

namespace Settings

/-- The names of all settings. -/
def known : List String :=
  ["entry", "root_dir", "out_dir", "format", "declaration", "verbose", "line", "direction",
    "max_depth", "serve", "host", "port", "jobs"]

/-- The value of a setting. -/
def get? (settings : Settings) (name : String) : Option Value := Json.findMember? settings name

/-- The value of a setting that is there and not empty. -/
def given? (settings : Settings) (name : String) : Option Value :=
  (settings.get? name).filter Value.isGiven

/-- An integer that is at least the minimum, or nothing for null. -/
def integer (name : String) (minimum : Nat) (value : Value) : Except ConfigError (Option Nat) :=
  match value with
  | .null => .ok none
  | .int n => if n < minimum then .error (.tooSmall name minimum n) else .ok (some n.toNat)
  | other => .error (.notInteger name other)

/-- The integer that a setting gives. -/
def integer? (settings : Settings) (name : String) (minimum : Nat) :
    Except ConfigError (Option Nat) :=
  integer name minimum ((settings.get? name).getD .null)

/-- The flag that a setting gives. -/
def flag (settings : Settings) (name : String) : Except ConfigError Bool :=
  match settings.get? name with
  | none => .ok false
  | some (.bool b) => .ok b
  | some other => .error (.notFlag name other)

/-- Whether a name can hold a code point: it is a character, or a surrogate that stands for a
byte. -/
def isEncoded (n : Nat) : Bool := decide (n.isValidChar ∨ 0xdc80 ≤ n ∧ n < 0xdd00)

/-- The text of a path setting. Bytes that are no text stand in it as replacement characters. -/
def pathText (value : Value) : Except SettingsError String :=
  match value with
  | .string text => .ok text
  | .surrogates points =>
    if points.all isEncoded then .ok (Json.pointText points) else .error (.notEncoded points)
  | other => .error (.notAPath other)

/-- The absolute path that a value names. -/
def resolved (fs : FileSystem) (value : Value) : Except SettingsError Path := do
  let text ← pathText value
  (fs.resolve (Path.ofString text)).mapError fun
    | .tooManyLinks => .linkCycle (Path.ofString text)
    | e => .file e

/-- Refuses settings that do not exist. -/
def checkNames (settings : Settings) : Except ConfigError Unit :=
  match (settings.map Prod.fst).filter (!known.contains ·) with
  | [] => .ok ()
  | unknown => .error (.unknownSettings (sortNames unknown))

/-- The entry path, which has to be there. -/
def entryPath (settings : Settings) (platform : Platform) (fs : FileSystem) :
    Except SettingsError Path := do
  let some raw := settings.given? "entry" | throw (.config .noEntry)
  let entry ← resolved fs raw
  if !platform.answers fs entry then throw (.refused entry)
  if !fs.pathExists entry then throw (.config (.entryMissing raw.plainText))
  if fs.isFile entry && entry.suffix ≠ ".py" then throw (.config (.entryNotSource raw.plainText))
  return entry

/-- The root directory that is meant: the one given, or the directory of the entry. -/
def namedRoot (settings : Settings) (fs : FileSystem) (entry : Path) : Except SettingsError Path :=
  match (settings.get? "root_dir").getD .null with
  | .null => .ok (if fs.isDirectory entry then entry else entry.parent)
  | raw => resolved fs raw

/-- The root directory, which has to be there and to hold the entry. -/
def rootPath (settings : Settings) (platform : Platform) (fs : FileSystem) (entry : Path) :
    Except SettingsError Path := do
  let root ← settings.namedRoot fs entry
  if !platform.answers fs root then throw (.refused root)
  if !fs.isDirectory root then throw (.config (.rootMissing root))
  if entry ≠ root &&
    !root.isProperAncestor entry then throw (.config (.entryOutsideRoot entry root))
  return root

/-- The image format. -/
def format (settings : Settings) : Except ConfigError String :=
  match settings.given? "format" with
  | none => .ok "svg"
  | some (.string text) =>
    if outputFormats.contains text then .ok text else .error (.unsupportedFormat (.string text))
  | some other => .error (.unsupportedFormat other)

/-- The direction of the hierarchies. -/
def direction (settings : Settings) : Except ConfigError Direction :=
  match settings.given? "direction" with
  | none => .ok .outgoing
  | some (.string "outgoing") => .ok .outgoing
  | some (.string "incoming") => .ok .incoming
  | some other => .error (.unknownDirection other)

/-- The number that the server listens on. -/
def portNumber (settings : Settings) : Except ConfigError Nat := do
  match ← integer "port" 0 ((settings.get? "port").getD (.int 7878)) with
  | none => throw (.portOutOfRange .null)
  | some n => if n > 65535 then throw (.portOutOfRange (.int n)) else return n

/-- The output directory: the one given, or the usual one below the working directory. -/
def outputPath (settings : Settings) (fs : FileSystem) : Except SettingsError Path :=
  match settings.given? "out_dir" with
  | some raw => resolved fs raw
  | none => .ok { root := "/", parts := fs.current ++ ["output", "call-graph"] }

/-- The host that the server listens on: a string, or whatever else is given, written out. -/
def hostName (settings : Settings) (platform : Platform) : Except SettingsError String :=
  match settings.given? "host" with
  | none => .ok "127.0.0.1"
  | some (.string text) => .ok text
  | some (.surrogates points) => .ok (Json.pointText points)
  | some value => if platform.shows "host" value then .ok value.text else .error (.notShown value)

/-- Checks settings, in the order in which problems are reported. -/
def check (settings : Settings) (platform : Platform) (fs : FileSystem) :
    Except SettingsError Options := do
  let config {α : Type} (e : Except ConfigError α) : Except SettingsError α :=
    e.mapError platform.report
  config settings.checkNames
  let entry ← settings.entryPath platform fs
  let root ← settings.rootPath platform fs entry
  let format ← config settings.format
  let direction ← config settings.direction
  let portNumber ← config settings.portNumber
  let declaration ← config (settings.flag "declaration")
  let verbose ← config (settings.flag "verbose")
  let line ← config (settings.integer? "line" 1)
  let maxDepth ← config (settings.integer? "max_depth" 1)
  let serve ← config (settings.flag "serve")
  let host ← settings.hostName platform
  let jobs ← config (settings.integer? "jobs" 1)
  let output ← settings.outputPath fs
  return {
    entry := fs.entryFiles entry
    root, output, format, declaration, verbose, line, direction, maxDepth, serve, host,
    portNumber, jobs }

end Settings

end CallAtlas
