import Deadwood.Settings.Basic
import Deadwood.Toml.Reader
import Deadwood.Number.Numeral
import Deadwood.FileTree.Basic

/-!
# Loading settings

Settings are put together from layers: the project's file, a file named by the
caller, variables of the environment, and overrides.  A later layer hides the
values of an earlier one.
-/

namespace Deadwood.Settings

/-- The name of the settings file in a project's root. -/
def fileName : Text := "deadref.toml"

/-- The table of a settings file that holds the settings, if they do not stand at the top. -/
def tableName : Text := "deadref"

/-- The layer in the bytes of a settings file. -/
def layerOfBytes (path : Text) (bytes : Bytes) : Except Failure Layer :=
  match Encoding.decode .utf8 .strict bytes with
  | .error _ => throw (.fault .undecodable)
  | .ok text =>
    match Toml.read text with
    | .error (.malformed message position) => throw (.badSettingsFile path (Toml.describe text message position))
    | .error .numberTooLong => throw (.fault .badValue)
    | .error .tooDeep => throw (.fault .tooDeep)
    | .ok members =>
      match Toml.lookup tableName members with
      | none => pure members
      | some (.table inner) => pure inner
      | some _ => throw (.configuration ("Invalid config file '" ++ path ++ "': [deadref] must be a table"))

/-- The layer in the settings file at a path. -/
def layerOfFile (tree : FileTree) (path : Path.Parsed) : Except Failure Layer :=
  match tree.content path with
  | .ok bytes => layerOfBytes path.toText bytes
  | .error fault =>
    throw (.configuration ("Cannot read config file '" ++ path.toText ++ "': " ++ fault.message path.toText))

/-- The layer in the settings file at a path, if something is there. -/
def layerOr (missing : Except Failure Layer) (tree : FileTree) (path : Path.Parsed) : Except Failure Layer :=
  match tree.stat path with
  | .ok _ => layerOfFile tree path
  | .error .nameTooLong => throw (.fault (.system .nameTooLong))
  | .error _ => missing

/-- The layer of the file in a project's root, empty if there is none. -/
def projectLayer (tree : FileTree) (root : Path.Parsed) : Except Failure Layer :=
  layerOr (pure []) tree (root.append (Path.Parsed.ofText fileName))

/-- The layer of a file that the caller names. -/
def explicitLayer (tree : FileTree) : Option Path.Parsed → Except Failure Layer
  | none => pure []
  | some path => layerOr (throw (.configuration ("Config file not found: " ++ path.toText))) tree path

/-- A variable's name: that of its setting in capitals. -/
def variableName (setting : Setting) : Text := ("DEADREF_" ++ setting.key.toUpper : String)

/-- Why a text is no whole number. -/
def wholeErrorText (text : Text) : Numeral.WholeError → Text
  | .malformed => "invalid literal for int() with base 10: " ++ (Text.quoted text).take 200
  | .tooLong digits =>
    "Exceeds the limit (" ++ Text.ofNat Numeral.digitLimit ++ " digits) for integer string conversion: value has " ++
      Text.ofNat digits ++ " digits; use sys.set_int_max_str_digits() to increase the limit"

/-- The value that a variable's text stands for, or why it has none. -/
def valueOfVariable (kind : SettingKind) (text : Text) : Except Text Value :=
  match kind with
  | .texts => pure (.texts (((Text.splitOn ',' text).map Text.trim).filter (· ≠ [])))
  | .switch =>
    let word := Text.lower (Text.trim text)
    if ["true", "1", "yes", "on"].any fun known => (known : Text) = word then pure (.bool true)
    else if ["false", "0", "no", "off"].any fun known => (known : Text) = word then pure (.bool false)
    else throw ("expected a boolean, got '" ++ text ++ "'")
  | .whole => (Numeral.whole text).map Value.int |>.mapError (wholeErrorText text)
  | .decimal =>
    match Numeral.decimal text with
    | some number => pure (.float number)
    | none => throw ("could not convert string to float: " ++ Text.quoted text)
  | .text => pure (.text text)

/-- The layer of the environment's variables. -/
def environmentLayer (environment : List (Text × Text)) : Except Failure Layer := do
  let values ← Setting.all.mapM fun setting =>
    match environment.find? (·.1 = variableName setting) with
    | none => pure none
    | some (_, text) =>
      match valueOfVariable setting.kind text with
      | .ok value => pure (some (Text.ofString setting.key, value))
      | .error reason => throw (.badSetting setting.key text (variableName setting ++ ": " ++ reason))
  pure (values.filterMap id)

/-- The layer of a caller's overrides: those that are set, with the verbosity of `quiet` or else of `verbose`. -/
def overrideLayer (overrides : Layer) : Layer :=
  let given := overrides.filter fun (name, value) =>
    (match value with
      | .none => false
      | _ => true) && name ≠ ("verbose" : Text) && name ≠ ("quiet" : Text)
  let asks (name : Text) : Bool := ((Layer.value? overrides name).map Value.isTruthy).getD false
  if asks "quiet" then Layer.set "verbosity" (.text "quiet") given
  else if asks "verbose" then Layer.set "verbosity" (.text "verbose") given
  else given

/-- The settings of a layer, where a mismatch is a failure of its own. -/
def ofMergedLayer (layer : Layer) : Except Failure Settings :=
  match ofLayer layer with
  | .ok settings => pure settings
  | .error (.mismatch message) => throw (.configuration ("Invalid configuration: " ++ message))
  | .error (.failure failure) => throw failure

/-- The settings for a project. -/
def load (tree : FileTree) (root : Path.Parsed) (file : Option Path.Parsed) (environment : List (Text × Text))
    (overrides : Layer) : Except Failure Settings := do
  let project ← projectLayer tree root
  let explicit ← explicitLayer tree file
  let environment ← environmentLayer environment
  ofMergedLayer (((project.hiddenBy explicit).hiddenBy environment).hiddenBy (overrideLayer overrides))

end Deadwood.Settings
