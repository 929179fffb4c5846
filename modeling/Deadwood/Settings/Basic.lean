import Deadwood.Settings.Value
import Deadwood.Text.Lowercase
import Deadwood.Path
import Deadwood.Log

/-!
# Settings

The settings of a run.  A mapping from names to values is turned into settings
by filling in defaults and checking the values one setting after the other.  A
setting that no check looks into keeps its value as given.
-/

namespace Deadwood

/-- What the values of a setting are meant to be. -/
inductive SettingKind where
  | texts
  | decimal
  | text
  | switch
  | whole
  deriving DecidableEq, Repr

/-- The names of settings. -/
inductive Setting where
  | scriptPatterns
  | stylePatterns
  | sizeLimit
  | aliasStart
  | aliasTarget
  | ignoreFiles
  | ignoreExtensions
  | ignoreDependencies
  | reportFile
  | deleteUnused
  | backupFolder
  | workers
  | verbosity
  deriving DecidableEq, Repr

namespace Setting

/-- All settings, in the order in which they are read. -/
def all : List Setting :=
  [scriptPatterns, stylePatterns, sizeLimit, aliasStart, aliasTarget, ignoreFiles, ignoreExtensions, ignoreDependencies,
    reportFile, deleteUnused, backupFolder, workers, verbosity]

/-- The name of a setting in files. -/
def key : Setting → String
  | scriptPatterns => "script_patterns"
  | stylePatterns => "style_patterns"
  | sizeLimit => "max_file_size_mb"
  | aliasStart => "alias_prefix"
  | aliasTarget => "alias_target"
  | ignoreFiles => "ignore_files"
  | ignoreExtensions => "ignore_extensions"
  | ignoreDependencies => "ignore_dependencies"
  | reportFile => "report_file"
  | deleteUnused => "delete_unused"
  | backupFolder => "backup_dir"
  | workers => "workers"
  | verbosity => "verbosity"

/-- The kind of a setting. -/
def kind : Setting → SettingKind
  | scriptPatterns | stylePatterns | ignoreFiles | ignoreExtensions | ignoreDependencies => .texts
  | sizeLimit => .decimal
  | aliasStart | aliasTarget | reportFile | backupFolder | verbosity => .text
  | deleteUnused => .switch
  | workers => .whole

/-- The value of a setting that is not given. -/
def default : Setting → Value
  | scriptPatterns => .texts ["src/**/*.ts", "src/**/*.tsx"]
  | stylePatterns => .texts ["src/**/*.css", "src/**/*.less", "src/**/*.scss"]
  | sizeLimit => .float (.ofRatio false 10 1)
  | aliasStart => .text "@/"
  | aliasTarget => .text "src/"
  | ignoreFiles | ignoreExtensions | ignoreDependencies => .list []
  | reportFile => .text "deadref.report.json"
  | deleteUnused => .bool false
  | backupFolder => .text "deadref-deleted-files"
  | workers => .int 2
  | verbosity => .text "normal"

end Setting

/-- Values by name; a name stands there once. -/
abbrev Layer := List (Text × Value)

namespace Layer

/-- The value of a name. -/
def value? (layer : Layer) (name : Text) : Option Value := (layer.find? (·.1 = name)).map (·.2)

/-- The value of a setting, its default if the layer has none. -/
def valueOf (layer : Layer) (setting : Setting) : Value := (layer.value? setting.key).getD setting.default

/-- A value put under a name, in its old place if it has one. -/
def set (name : Text) (value : Value) : Layer → Layer
  | [] => [(name, value)]
  | (known, old) :: rest => if known = name then (name, value) :: rest else (known, old) :: set name value rest

/-- A layer with another one above it, whose values hide those below. -/
def hiddenBy (below above : Layer) : Layer := above.foldl (fun layer (name, value) => layer.set name value) below

end Layer

/-- The settings of a run. -/
structure Settings where
  scriptPatterns : Value
  stylePatterns : Value
  /-- The largest size of a file that is read, in units of `2 ^ 20` bytes. -/
  sizeLimit : Value
  aliasStart : Value
  aliasTarget : Text
  ignoreFiles : Value
  ignoreExtensions : Value
  ignoreDependencies : Value
  reportFile : Value
  deleteUnused : Value
  /-- The folder below the root that receives unused files. -/
  backupFolder : Text
  workers : Value
  verbosity : Verbosity

/-- Why values were not accepted as settings. -/
inductive SettingsError where
  /-- A name or a type of value that no setting has. -/
  | mismatch (message : Text)
  | failure (failure : Failure)

namespace Settings

/-- A value that a setting does not allow; one that cannot be written is a fault. -/
def refuse {α : Type} (setting : Setting) (value : Value) (reason : String) : Except SettingsError α :=
  throw (.failure (match value.obstacle? Value.depthLimit with
    | none => .badSetting setting.key value.toText reason
    | some fault => .fault fault))

/-- Whether a value is at most zero, if it is a number. -/
def notPositive? : Value → Option Bool
  | .bool b => some !b
  | .int n => some (n ≤ 0)
  | .float x => some x.notPositive
  | _ => none

/-- Whether a value is less than one, if it is a number. -/
def belowOne? : Value → Option Bool
  | .bool b => some !b
  | .int n => some (n < 1)
  | .float x => some x.belowOne
  | _ => none

def incomparable {α : Type} (relation : String) (value : Value) : Except SettingsError α :=
  throw (.mismatch ("'" ++ relation ++ "' not supported between instances of '" ++ value.fullKindName ++ "' and 'int'"))

/-- A name that no setting has. -/
def refuseName {α : Type} (name : Text) : Except SettingsError α :=
  throw (.mismatch (if name = ("self" : Text) then "ScanConfig.__init__() got multiple values for argument 'self'"
    else "ScanConfig.__init__() got an unexpected keyword argument '" ++ name ++ "'"))

/-- All names in a layer are those of settings. -/
def checkNames (layer : Layer) : Except SettingsError Unit :=
  match layer.find? fun (name, _) => !Setting.all.any fun setting => (setting.key : Text) = name with
  | some (name, _) => refuseName name
  | none => pure ()

/-- Some patterns are given. -/
def checkPatterns (layer : Layer) : Except SettingsError Unit :=
  if (layer.valueOf .scriptPatterns).isTruthy || (layer.valueOf .stylePatterns).isTruthy then pure ()
  else refuse .scriptPatterns (layer.valueOf .scriptPatterns) "at least one file pattern is required"

/-- A value counts as given. -/
def checkGiven (layer : Layer) (setting : Setting) (reason : String) : Except SettingsError Unit :=
  if (layer.valueOf setting).isTruthy then pure () else refuse setting (layer.valueOf setting) reason

/-- A value is a number that is not too low. -/
def checkNumber (layer : Layer) (setting : Setting) (isLow? : Value → Option Bool) (relation reason : String) :
    Except SettingsError Unit :=
  match isLow? (layer.valueOf setting) with
  | none => incomparable relation (layer.valueOf setting)
  | some true => refuse setting (layer.valueOf setting) reason
  | some false => pure ()

/-- The folder that an alias stands for. -/
def readAliasTarget (layer : Layer) : Except SettingsError Text :=
  match layer.valueOf .aliasTarget with
  | .text target =>
    if Text.endsWith target "/" then pure target else refuse .aliasTarget (.text target) "must end with '/'"
  | _ => throw (.failure (.fault .unknownOperation))

/-- How much is said. -/
def readVerbosity (layer : Layer) : Except SettingsError Verbosity :=
  match (layer.valueOf .verbosity).text?.bind Verbosity.ofName? with
  | some verbosity => pure verbosity
  | none => refuse .verbosity (layer.valueOf .verbosity) "expected quiet, normal or verbose"

/-- The folder that receives unused files. -/
def readBackupFolder (layer : Layer) : Except SettingsError Text := do
  let relative := "must be a path relative to the project root"
  checkGiven layer .backupFolder relative
  match layer.valueOf .backupFolder with
  | .text folder =>
    if Text.startsWith folder "/" then refuse .backupFolder (.text folder) relative else pure folder
  | other => throw (.mismatch ("expected str, bytes or os.PathLike object, not " ++ Text.ofString other.kindName))

/-- The settings of a layer over the defaults. -/
def ofLayer (layer : Layer) : Except SettingsError Settings := do
  checkNames layer
  checkPatterns layer
  checkNumber layer .sizeLimit notPositive? "<=" "must be positive"
  checkGiven layer .aliasStart "must not be empty"
  let aliasTarget ← readAliasTarget layer
  checkNumber layer .workers belowOne? "<" "must be at least 1"
  let verbosity ← readVerbosity layer
  checkGiven layer .reportFile "must not be empty"
  let backupFolder ← readBackupFolder layer
  pure {
    scriptPatterns := layer.valueOf .scriptPatterns
    stylePatterns := layer.valueOf .stylePatterns
    sizeLimit := layer.valueOf .sizeLimit
    aliasStart := layer.valueOf .aliasStart
    aliasTarget
    ignoreFiles := layer.valueOf .ignoreFiles
    ignoreExtensions := layer.valueOf .ignoreExtensions
    ignoreDependencies := layer.valueOf .ignoreDependencies
    reportFile := layer.valueOf .reportFile
    deleteUnused := layer.valueOf .deleteUnused
    backupFolder
    workers := layer.valueOf .workers
    verbosity }

/-- The settings as values by name. -/
def toLayer (settings : Settings) : Layer :=
  Setting.all.map fun setting => (Text.ofString setting.key, match setting with
    | .scriptPatterns => settings.scriptPatterns
    | .stylePatterns => settings.stylePatterns
    | .sizeLimit => settings.sizeLimit
    | .aliasStart => settings.aliasStart
    | .aliasTarget => .text settings.aliasTarget
    | .ignoreFiles => settings.ignoreFiles
    | .ignoreExtensions => settings.ignoreExtensions
    | .ignoreDependencies => settings.ignoreDependencies
    | .reportFile => settings.reportFile
    | .deleteUnused => settings.deleteUnused
    | .backupFolder => .text settings.backupFolder
    | .workers => settings.workers
    | .verbosity => .text settings.verbosity.name)

/-- The largest number of bytes of a file that is read. -/
def maxBytes (settings : Settings) : Except Fault Int :=
  match settings.sizeLimit with
  | .bool b => pure (if b then 0x100000 else 0)
  | .int n => pure (n * 0x100000)
  | .float .nan => throw .badValue
  | .float (.infinite _) => throw .tooLarge
  | .float (.finite negative mantissa exponent) =>
    if Binary64.greatestExponent < exponent + 20 && Nat.pow 2 52 ≤ mantissa then throw .tooLarge
    else
      let whole : Int := Binary64.wholeScaled mantissa (exponent + 20)
      pure (if negative then -whole else whole)
  | _ => throw .wrongType

/-- The ends of paths, in lower case, of files that are never reported as unused. -/
def ignoredSuffixes (settings : Settings) : Except Fault (List Text) := do
  let items ← settings.ignoreExtensions.items
  let suffixes ← items.mapM fun item => match item with
    | .text extension =>
      pure (Codepoint.char '.' :: Text.lower (Text.trimStartBy (· = Codepoint.char '.') extension))
    | _ => throw .unknownOperation
  pure (Text.sortedSet suffixes)

/-- The lines of the ignore patterns; they are asked for once a path is tested. -/
def ignoredLines (settings : Settings) : Except Fault (Except Fault (List Text)) := do
  let items ← settings.ignoreFiles.items
  pure (items.mapM fun item => match item with
    | .text line => pure line
    | _ => throw .unknownOperation)

end Settings

end Deadwood
