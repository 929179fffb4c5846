import Deadwood.Text.Basic

/-!
# Failures

Why an operation did not give a result.  The causes that the library itself
diagnoses have a message with details; a `Fault` is a value or a file that
turned out unusable while it was being used.
-/

namespace Deadwood

/-- Why the file system refused something. -/
inductive SystemFault where
  | notFound
  | alreadyExists
  | notFolder
  | isFolder
  | nameTooLong
  | invalid
  | busy
  | denied
  deriving DecidableEq, Repr

namespace SystemFault

/-- The number by which the file system knows a refusal. -/
def number : SystemFault → Nat
  | notFound => 2
  | denied => 13
  | busy => 16
  | alreadyExists => 17
  | notFolder => 20
  | isFolder => 21
  | invalid => 22
  | nameTooLong => 36

/-- What the file system says of a refusal. -/
def description : SystemFault → String
  | notFound => "No such file or directory"
  | denied => "Permission denied"
  | busy => "Device or resource busy"
  | alreadyExists => "File exists"
  | notFolder => "Not a directory"
  | isFolder => "Is a directory"
  | invalid => "Invalid argument"
  | nameTooLong => "File name too long"

end SystemFault

/-- A value or a file that cannot be used as it is. -/
inductive Fault where
  /-- A value of a type with which the operation cannot be done. -/
  | wrongType
  /-- A value of a type that does not know the operation. -/
  | unknownOperation
  /-- A value of the right type that is out of range for the operation. -/
  | badValue
  /-- A number too large for the operation. -/
  | tooLarge
  /-- Bytes that encode no text. -/
  | undecodable
  /-- A text that no bytes encode. -/
  | unencodable
  /-- A file pattern that is not relative. -/
  | rootedPattern
  /-- A file pattern without segments. -/
  | emptyPattern
  /-- An ignore pattern that cannot be read. -/
  | badIgnorePattern
  /-- A bracket with a reversed range. -/
  | badRange
  /-- Values nested too deeply. -/
  | tooDeep
  /-- Markup with a tag that closes nothing. -/
  | badMarkup
  /-- A refusal of the file system. -/
  | system (fault : SystemFault)
  deriving DecidableEq, Repr

/-- Why an operation gave no result. -/
inductive Failure where
  /-- A file that cannot be read or moved. -/
  | unreadable (path reason : Text)
  /-- A script that cannot be parsed. -/
  | unparsable (path language reason : Text)
  /-- Unused files asked for before all files are scanned. -/
  | incomplete
  /-- A package manifest that cannot be used. -/
  | badManifest (path reason : Text)
  /-- Settings that cannot be loaded. -/
  | configuration (message : Text)
  /-- A settings file that is not well formed. -/
  | badSettingsFile (path diagnosis : Text)
  /-- A setting with a value that is not allowed. -/
  | badSetting (key value reason : Text)
  /-- A project root that is no folder. -/
  | badRoot (path reason : Text)
  /-- A report that cannot be written. -/
  | unwritable (path reason : Text)
  /-- A fault met on the way. -/
  | fault (fault : Fault)
  deriving DecidableEq, Repr

namespace Failure

/-- A headline and named details in parentheses. -/
def withDetails (headline : Text) (details : List (String × Text)) : Text :=
  headline ++ " (" ++ Text.joinWith ", " (details.map fun (key, value) => (key : Text) ++ "=" ++ value) ++ ")"

/-- The message of a failure that the library diagnoses itself. -/
def message? : Failure → Option Text
  | unreadable path reason =>
    some (withDetails ("Cannot read file: " ++ path) [("filepath", path), ("reason", reason)])
  | unparsable path language reason =>
    some (withDetails ("Failed to parse " ++ language ++ " file: " ++ path)
      [("filepath", path), ("language", language), ("reason", reason)])
  | incomplete =>
    some (withDetails "Unused files are only known after every file has been scanned"
      [("hint", "call complete() once all resolutions are added")])
  | badManifest path reason =>
    some (withDetails ("Invalid package manifest: " ++ path) [("filepath", path), ("reason", reason)])
  | configuration message => some message
  | badSettingsFile path diagnosis => some ("Invalid config file '" ++ path ++ "': " ++ diagnosis)
  | badSetting key value reason =>
    some (withDetails ("Invalid configuration for " ++ key ++ ": " ++ value)
      [("key", key), ("value", value), ("reason", reason)])
  | badRoot path reason =>
    some (withDetails ("Invalid path: " ++ path) [("path", path), ("reason", reason)])
  | unwritable path reason => some (withDetails ("Cannot write report: " ++ path) [("reason", reason)])
  | fault _ => none

end Failure

end Deadwood
