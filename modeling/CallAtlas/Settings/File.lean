import CallAtlas.Json.Comments
import CallAtlas.Json.Reader
import CallAtlas.Settings.Error

/-!
# Settings files

A settings file is a JSON object with comments. Settings stand at its top or in a section, and some
have a second spelling; `flatten` brings them to one list in which every name occurs once.
-/

namespace CallAtlas

open Json (Value)

/-- Settings by name. -/
abbrev Settings := List (String × Value)

namespace Settings

/-- The name of a setting that may be spelled in two ways. -/
def settingName (key : String) : String :=
  match key with
  | "rootDir" => "root_dir"
  | "outDir" => "out_dir"
  | "maxDepth" => "max_depth"
  | other => other

/-- Adds settings to those that are there; none may occur twice. -/
def gather (settings : Settings) : List (String × Value) → Except ConfigError Settings
  | [] => .ok settings
  | (key, value) :: rest =>
    let name := settingName key
    if (Json.findMember? settings name).isSome then .error (.repeatedSetting name)
    else gather (settings ++ [(name, value)]) rest

/-- The settings of an object, those of its section last. -/
def flatten (members : List (String × Value)) : Except ConfigError Settings :=
  let top := members.filter fun (key, _) => key ≠ sectionName
  match Json.findMember? members sectionName with
  | none => gather [] top
  | some (.object nested) => gather [] (top ++ nested)
  | some _ => .error .sectionNotObject

/-- The settings in the text of a file. -/
def parse (room : Nat) (file : Path) (text : List Char) : Except SettingsError Settings :=
  match Json.stripComments text with
  | none => .error (.config .unclosedComment)
  | some stripped =>
    match Json.parse room stripped with
    | .error .malformed => .error (.config (.malformedFile file))
    | .error (.longNumber digits) => .error (.longNumber digits)
    | .error .tooDeep => .error .tooDeep
    | .ok (.object members) => (flatten members).mapError .config
    | .ok _ => .error (.config (.fileNotObject file))

/-- Reads a settings file. -/
def load (platform : Platform) (fs : FileSystem) (file : Path) : Except SettingsError Settings := do
  if !platform.answers fs file then throw (.refused file)
  if !fs.isFile file then throw (.config (.fileNotFound file))
  if file.suffix ≠ ".json" then throw (.config (.wrongExtension file))
  if !platform.opens fs file then throw (.refused file)
  let text ← (fs.readText file).mapError .file
  parse platform.readRoom file text

end Settings

end CallAtlas
