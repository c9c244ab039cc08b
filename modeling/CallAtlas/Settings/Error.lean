import CallAtlas.Settings.Platform

/-!
# What can be wrong with settings

A `ConfigError` is a mistake of whoever wrote the settings, with a message that says so. Some
settings cannot even be looked at: a value that is no path where a path is needed, a file that is no
text, a number with too many digits. And a message is not made if the value that it shows cannot be
written out.
-/

namespace CallAtlas

open Json (Value)

/-- The image formats that a graph can be written in. -/
def outputFormats : List String :=
  ["jpg", "jpeg", "jpe", "jp2", "pdf", "png", "ps", "ps2", "psd", "sgi", "svg", "svgz", "webp"]

/-- A mistake in the settings. -/
inductive ConfigError where
  | unclosedComment
  | sectionNotObject
  | repeatedSetting (name : String)
  | fileNotFound (file : Path)
  | wrongExtension (file : Path)
  | malformedFile (file : Path)
  | fileNotObject (file : Path)
  | unknownSettings (names : List String)
  | noEntry
  | entryMissing (entry : String)
  | entryNotSource (entry : String)
  | rootMissing (root : Path)
  | entryOutsideRoot (entry root : Path)
  | unsupportedFormat (value : Value)
  | unknownDirection (value : Value)
  | notInteger (name : String) (value : Value)
  | tooSmall (name : String) (minimum value : Int)
  | portOutOfRange (value : Value)
  | notFlag (name : String) (value : Value)

/-- The name of the section that settings may stand in. -/
def sectionName : String := "callGraph"

namespace ConfigError

/-- The text of the message. -/
def message : ConfigError → String
  | .unclosedComment => "unclosed block comment"
  | .sectionNotObject => sectionName ++ " must be a JSON object"
  | .repeatedSetting name => "setting " ++ name ++ " is given more than once"
  | .fileNotFound file => "config file not found: " ++ file.text
  | .wrongExtension file => "unsupported config file extension (must be .json): " ++ file.text
  | .malformedFile file => "malformed config file " ++ file.text
  | .fileNotObject file => "config file must contain a JSON object: " ++ file.text
  | .unknownSettings names => "unknown setting(s): " ++ ", ".intercalate names
  | .noEntry => "an entry path is required"
  | .entryMissing entry => "entry path does not exist: " ++ entry
  | .entryNotSource entry => "entry file must be a .py file: " ++ entry
  | .rootMissing root => "root directory does not exist: " ++ root.text
  | .entryOutsideRoot entry root =>
    "entry " ++ entry.text ++ " is not inside root directory " ++ root.text
  | .unsupportedFormat value =>
    "unsupported output format " ++ value.text ++ "; choose one of " ++
      ", ".intercalate outputFormats
  | .unknownDirection value => "direction must be 'outgoing' or 'incoming', got " ++ value.text
  | .notInteger name value => name ++ " must be an integer, got " ++ value.text
  | .tooSmall name minimum value =>
    name ++ " must be >= " ++ toString minimum ++ ", got " ++ toString value
  | .portOutOfRange value => "port must be between 0 and 65535, got " ++ value.text
  | .notFlag name value => name ++ " must be true or false, got " ++ value.text

/-- The setting and the value that the message shows. -/
def shown? : ConfigError → Option (String × Value)
  | .unsupportedFormat value => some ("format", value)
  | .unknownDirection value => some ("direction", value)
  | .notInteger name value => some (name, value)
  | .tooSmall name _ value => some (name, .int value)
  | .portOutOfRange value => some ("port", value)
  | .notFlag name value => some (name, value)
  | _ => none

end ConfigError

/-- Why settings are not accepted. -/
inductive SettingsError where
  | config (error : ConfigError)
  | notAPath (value : Value)
  | notEncoded (points : List Nat)
  | refused (path : Path)
  | file (error : FileError)
  | linkCycle (path : Path)
  | longNumber (digits : Nat)
  | tooDeep
  | notShown (value : Value)

namespace SettingsError

/-- The text for a number with too many digits. -/
def longNumberMessage (digits : Nat) : String :=
  "Exceeds the limit (4300 digits) for integer string conversion: value has " ++ toString digits ++
    " digits; use sys.set_int_max_str_digits() to increase the limit"

end SettingsError

/-- What a mistake is reported as: a mistake, unless its message shows a value that cannot be
written out. -/
def Platform.report (platform : Platform) (e : ConfigError) : SettingsError :=
  match e.shown? with
  | some (name, value) => if platform.shows name value then .config e else .notShown value
  | none => .config e

end CallAtlas
