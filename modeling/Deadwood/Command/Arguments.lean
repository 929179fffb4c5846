import Deadwood.Format
import Deadwood.FileTree.Basic

/-!
# Arguments

The arguments of the command.  Options may stand anywhere, several short ones
behind one dash, and a value may be attached to its option; after `--` all
arguments stand for themselves.
-/

namespace Deadwood.Command

/-- The options without a value. -/
inductive Switch where
  | noReport
  | delete
  | failOnUnused
  | verbose
  | quiet
  | version
  | help
  deriving DecidableEq, Repr

/-- The options with a value. -/
inductive Slot where
  | config
  | format
  | output
  | logFile
  deriving DecidableEq, Repr

/-- An option. -/
inductive Choice where
  | switch (switch : Switch)
  | slot (slot : Slot)

/-- The option of a long name. -/
def longOption? (name : Text) : Option Choice :=
  let names : List (String × Choice) :=
    [("--config", .slot .config), ("--format", .slot .format), ("--output", .slot .output),
      ("--log-file", .slot .logFile), ("--no-report", .switch .noReport), ("--delete", .switch .delete),
      ("--fail-on-unused", .switch .failOnUnused), ("--verbose", .switch .verbose), ("--quiet", .switch .quiet),
      ("--version", .switch .version), ("--help", .switch .help)]
  (names.find? fun (known, _) => (known : Text) = name).map (·.2)

/-- The option of a short name. -/
def shortOption? (letter : Codepoint) : Option Choice :=
  let letters : List (Char × Choice) :=
    [('c', .slot .config), ('f', .slot .format), ('o', .slot .output), ('v', .switch .verbose), ('q', .switch .quiet)]
  (letters.find? fun (known, _) => letter = Codepoint.char known).map (·.2)

/-- What arguments give. -/
structure Given where
  switches : List Switch := []
  /-- The values of options, the last one first. -/
  values : List (Slot × Text) := []
  /-- The other arguments, the last one first. -/
  others : List Text := []

namespace Given

def turnOn (given : Given) (switch : Switch) : Given := { given with switches := switch :: given.switches }

def set (given : Given) (slot : Slot) (value : Text) : Given := { given with values := (slot, value) :: given.values }

def has (given : Given) (switch : Switch) : Bool := given.switches.contains switch

/-- The last value given for an option. -/
def value? (given : Given) (slot : Slot) : Option Text := (given.values.find? (·.1 = slot)).map (·.2)

end Given

/-- Reads short options behind one dash: what they give, and the arguments left. -/
def readShort (given : Given) (args : List Text) : Text → Option (Given × List Text)
  | [] => some (given, args)
  | letter :: rest =>
    match shortOption? letter with
    | none => none
    | some (.switch switch) => readShort (given.turnOn switch) args rest
    | some (.slot slot) =>
      if rest ≠ [] then some (given.set slot rest, args)
      else match args with
        | value :: args => some (given.set slot value, args)
        | [] => none

/-- Reads a long option: what it gives, and the arguments left. -/
def readLong (given : Given) (args : List Text) (arg : Text) : Option (Given × List Text) :=
  let name := arg.takeWhile (· ≠ Codepoint.char '=')
  let attached := arg.drop name.length
  match longOption? name with
  | none => none
  | some (.switch switch) => if attached = [] then some (given.turnOn switch, args) else none
  | some (.slot slot) =>
    match attached, args with
    | _ :: value, args => some (given.set slot value, args)
    | [], value :: args => some (given.set slot value, args)
    | [], [] => none

/-- Reads arguments; nothing if an option is unknown or lacks its value.  `bound` limits the steps. -/
def readArguments : Nat → Given → List Text → Option Given
  | 0, given, _ => some given
  | _, given, [] => some given
  | bound + 1, given, arg :: args =>
    if arg = ("--" : Text) then some { given with others := args.reverse ++ given.others }
    else if Text.startsWith arg "--" then do
      let (given, args) ← readLong given args arg
      readArguments bound given args
    else if Text.startsWith arg "-" && 1 < arg.length then do
      let (given, args) ← readShort given args (arg.drop 1)
      readArguments bound given args
    else readArguments bound { given with others := arg :: given.others } args

/-- What the command is asked to do. -/
structure Options where
  root : Path.Parsed
  config : Option Path.Parsed
  format : Format
  output : Option Text
  logFile : Option Text
  noReport : Bool
  delete : Bool
  failOnUnused : Bool
  verbose : Bool
  quiet : Bool
  version : Bool

/-- What stands at a path as it is written; a closing slash or point asks for a folder. -/
def entryAt (tree : FileTree) (path : Text) : Except SystemFault Entry := do
  let entry ← if path = [] then throw .notFound else tree.stat (Path.Parsed.ofText path)
  let last := (Path.segments path).getLastD []
  match entry with
  | .file _ => if last = [] || last = Path.here then throw .notFolder else pure entry
  | .folder => pure entry

/-- The root that the other arguments name: at most one, and no file. -/
def rootOf (tree : FileTree) : List Text → Option Path.Parsed
  | [] => some (Path.Parsed.ofText Path.here)
  | [path] =>
    match entryAt tree path with
    | .ok (.file _) => none
    | _ => some (Path.Parsed.ofText path)
  | _ => none

/-- The options that arguments ask for; nothing if one of them is refused. -/
def optionsOf (tree : FileTree) (given : Given) : Option Options := do
  let root ← rootOf tree given.others
  let config ← match given.value? .config with
    | none => some none
    | some path =>
      match entryAt tree path with
      | .ok (.file _) => some (some (Path.Parsed.ofText path))
      | _ => none
  let format ← match given.value? .format with
    | none => some .rich
    | some name => Format.ofAnyCase? name
  some {
    root
    config
    format
    output := given.value? .output
    logFile := given.value? .logFile
    noReport := given.has .noReport
    delete := given.has .delete
    failOnUnused := given.has .failOnUnused
    verbose := given.has .verbose
    quiet := given.has .quiet
    version := given.has .version }

end Deadwood.Command
